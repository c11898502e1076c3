import PacketDial.System.ShimFree
import PacketDial.System.AccountSpec

/-!
# What the commands on account settings do

The setters and getters of one account (`core_rust/src/lib.rs:2397–2942`) seen through the view of
settings: the values they have the shim store, the events that report one, and the accounts. The
other account commands store and report none.
-/

namespace PacketDial.System

open PacketDial.Core PacketDial.Lib

/-- The shim calls that store a setting of accounts. -/
def isSettingOp : ShimCall → Bool
  | .pdAccSetForward .. | .pdAccSetLookupUrl .. | .pdAccSetCodecPriority ..
  | .pdAccSetAutoAnswer .. | .pdAccSetDtmfMethod .. | .pdSetGlobalDtmfMethod _ => true
  | _ => false

/-- The events that report a setting of an account. -/
def settingResults : List String :=
  ["ForwardingResult", "LookupUrlResult", "CodecPriorityResult", "AutoAnswerResult",
    "DtmfMethodResult"]

/-- What a run does to settings, seen from outside. -/
inductive SettingAct where
  | stored (call : ShimCall)
  | reported (type : String) (payload : Json)

/-- The act on settings in an action. -/
def settingAct : Action → Option SettingAct
  | .shim call => if isSettingOp call then some (.stored call) else none
  | .event type payload => if type ∈ settingResults then some (.reported type payload) else none
  | _ => none

/-- The view of a run that shows what it does to settings, and the accounts. -/
def settingView : View Engine Action (AList fun _ : String ↦ Account) SettingAct :=
  ⟨(·.accounts), settingAct⟩

/-- The action has nothing to do with settings. -/
def NoSetting (a : Action) : Prop := settingAct a = none

/-- The program stores and reports no setting. -/
abbrev Aloof {α : Type} (x : Eng α) : Prop := Traced.Admits (Traced.Performs NoSetting) x

/-- Under a lock no setting is stored or reported. -/
def Muffled (held : List Mutex) (_ : Engine) (t : List Action) (_ : Engine) : Prop :=
  held ≠ [] → ∀ a ∈ t, NoSetting a

instance (held : List Mutex) : Traced.Composable (Muffled held) where
  nil _ _ := List.forall_mem_nil NoSetting
  append h h' hheld := List.forall_mem_append.mpr ⟨h hheld, h' hheld⟩

/-- An action that is neither a call of the shim nor an event, log entries apart. -/
theorem noSetting_of_hidden {a : Action} (hv : fullView.act a = none) (hs : isShim a = false) :
    NoSetting a := by
  have hnews : newsAct a = none := ((View.both_act_eq_none _).mp hv).2
  cases a with
  | shim => cases hs
  | event type payload =>
    unfold newsAct at hnews
    rw [ite_eq_left_iff] at hnews
    have htype : type = "EngineLog" := by
      by_contra hne
      exact Option.some_ne_none _ (hnews hne)
    subst htype
    rfl
  | _ => rfl

/-- What the tables and the events hide has nothing to do with settings, the shim apart. -/
instance : Blind fullView Muffled where
  update _ _ := List.forall_mem_nil NoSetting
  emit _ hv _ hs _ := List.forall_mem_singleton.mpr (noSetting_of_hidden hv hs)
  shim _ _ hheld := absurd rfl hheld
  guard _ h _ := by
    rw [List.forall_mem_cons, List.forall_mem_append, List.forall_mem_singleton]
    exact ⟨rfl, h (List.cons_ne_nil _ _), rfl⟩
  inner _ _ := List.forall_mem_nil NoSetting

section Primitives

variable {α : Type}

/-- A program that is muffled under some lock is aloof. -/
theorem aloof_of_muffled {held : List Mutex} {x : Eng α} (hheld : held ≠ [])
    (h : Traced.Admits (Muffled held) x) : Aloof x :=
  fun s t a s' hx ↦ h s t a s' (hx.mono fun _ _ _ _ ↦ List.forall_mem_nil NoSetting) hheld

/-- A critical section is aloof if its body is. -/
theorem aloof_withLock {m : Mutex} {x : Eng α} (h : Aloof x) : Aloof (withLock m x) :=
  performs_withLock (fun _ ↦ rfl) h

/-- An update is aloof. -/
theorem aloof_modify (f : Engine → Engine) : Aloof (Traced.modify f : Eng Unit) :=
  Traced.admits_modify fun _ ↦ List.forall_mem_nil NoSetting

/-- Returning is. -/
theorem aloof_pure (a : α) : Aloof (pure a : Eng α) := Traced.admits_pure a

/-- Reading the state is. -/
theorem aloof_get_bind {f : Engine → Eng α} (h : ∀ s, Aloof (f s)) : Aloof (Traced.get >>= f) :=
  Traced.admits_get.bind h

/-- A call of the shim that stores no setting is. -/
theorem aloof_shim {call : ShimCall} (h : isSettingOp call = false) : Aloof (shim call) := by
  unfold shim
  refine Traced.Admits.bind (Traced.admits_emit fun _ ↦ ?_) fun _ ↦ ?_
  · refine List.forall_mem_singleton.mpr ?_
    rw [NoSetting, settingAct, h]
    rfl
  · exact Traced.admits_ask.bind fun _ ↦ Traced.admits_pure _

/-- Logging is. -/
theorem aloof_logEngine (level : LogLevel) (message : String) : Aloof (logEngine level message) :=
  have muffled : Traced.Admits (Muffled [.calls]) (logEngine level message) :=
    tame_logEngine (by decide) level message
  aloof_of_muffled (by decide) muffled

/-- The delivery of an event is. -/
theorem aloof_deliverEvent (type : String) (payload : Json) : Aloof (deliverEvent type payload) :=
  have muffled : Traced.Admits (Muffled [.calls]) (deliverEvent type payload) :=
    tame_deliverEvent (by decide) type payload
  aloof_of_muffled (by decide) muffled

/-- Pushing an event that reports no setting is. -/
theorem aloof_pushEvent {type : String} (h : type ∉ settingResults) (payload : Json) :
    Aloof (pushEvent type payload) := by
  refine Traced.Admits.bind (Traced.admits_emit fun _ ↦ ?_) fun _ ↦ aloof_deliverEvent type payload
  exact List.forall_mem_singleton.mpr (if_neg h)

/-- Reporting a registration is. -/
theorem aloof_pushRegState (id : String) (state : RegistrationState) :
    Aloof (pushRegState id state) := by
  unfold pushRegState
  refine Traced.Admits.bind (aloof_withLock (aloof_get_bind fun _ ↦ aloof_pure _)) fun account ↦ ?_
  exact aloof_pushEvent (by decide) _

end Primitives

section Commands

variable (p : Json)

/-- `cmd_account_upsert` is aloof. -/
theorem aloof_cmdAccountUpsert : Aloof (cmdAccountUpsert p) := by
  unfold cmdAccountUpsert
  split
  · exact aloof_pure _
  · refine (aloof_withLock (aloof_get_bind fun s ↦ ?_)).bind fun known ↦ ?_
    · exact (aloof_modify _).bind fun _ ↦ aloof_pure _
    · dsimp only
      split
      · exact (aloof_pushRegState _ _).bind fun _ ↦ aloof_pure _
      · exact aloof_pure _

/-- Taking the PJSIP id out of an account is. -/
theorem aloof_takePjsipAccId (id : String) (state : RegistrationState) :
    Aloof (takePjsipAccId id state) := by
  unfold takePjsipAccId
  refine aloof_get_bind fun s ↦ ?_
  split
  · exact (aloof_modify _).bind fun _ ↦ aloof_pure _
  · exact aloof_pure _

/-- Removing a PJSIP account is. -/
theorem aloof_removePjsipAccount (pjId : Int) : Aloof (removePjsipAccount pjId) := by
  unfold removePjsipAccount
  refine Traced.Admits.bind ?_ fun _ ↦ aloof_withLock (aloof_modify _)
  exact (aloof_shim rfl).bind fun _ ↦ aloof_pure _

/-- Forgetting the PJSIP account of an account is. -/
theorem aloof_forgetPjsipAccount (pjId : Option Int) (text : Int → String) :
    Aloof (forgetPjsipAccount pjId text) := by
  unfold forgetPjsipAccount
  split
  · exact (aloof_removePjsipAccount _).bind fun _ ↦ aloof_logEngine _ _
  · exact aloof_pure _

/-- The transition to `Registering` is. -/
theorem aloof_beginRegistration (id : String) (acct : Account) :
    Aloof (beginRegistration id acct) := by
  unfold beginRegistration
  dsimp only
  split
  case' isTrue => refine (aloof_logEngine _ _).bind fun _ ↦ ?_
  all_goals
    refine (aloof_withLock (aloof_takePjsipAccId _ _)).bind fun oldPjId ↦ ?_
    split
    · exact (aloof_removePjsipAccount _).bind fun _ ↦ aloof_pushEvent (by decide) _
    · exact aloof_pushEvent (by decide) _

/-- The end of a failed registration is. -/
theorem aloof_registerFailed (id : String) : Aloof (registerFailed id) := by
  unfold registerFailed setRegState
  refine (aloof_withLock ?_).bind fun _ ↦ aloof_pure _
  refine Traced.Admits.bind (aloof_get_bind fun s ↦ ?_) fun _ ↦
    (aloof_pushRegState _ _).bind fun _ ↦ aloof_logEngine _ _
  split
  · exact aloof_modify _
  · exact aloof_pure _

/-- The end of a registration that started is. -/
theorem aloof_registerStarted (id : String) (pjAccId : Int) :
    Aloof (registerStarted id pjAccId) := by
  unfold registerStarted
  refine (aloof_withLock (aloof_get_bind fun s ↦ ?_)).bind fun _ ↦ ?_
  · split
    · exact aloof_modify _
    · exact aloof_pure _
  · refine (aloof_withLock (aloof_modify _)).bind fun _ ↦ ?_
    exact (aloof_logEngine _ _).bind fun _ ↦ aloof_pure _

/-- `cmd_account_register` is. -/
theorem aloof_cmdAccountRegister : Aloof (cmdAccountRegister p) := by
  have lookup (id : String) : Aloof (lookupForRegister id) := by
    unfold lookupForRegister
    refine aloof_withLock (aloof_get_bind fun s ↦ ?_)
    dsimp only
    split
    · exact (aloof_logEngine _ _).bind fun _ ↦ aloof_pure _
    · exact aloof_pure _
  unfold cmdAccountRegister
  split
  · exact aloof_pure _
  · refine (lookup _).bind fun found ↦ ?_
    split
    · exact aloof_pure _
    · refine (aloof_beginRegistration _ _).bind fun _ ↦ ?_
      split
      · exact (aloof_logEngine _ _).bind fun _ ↦ aloof_pure _
      · refine (aloof_shim rfl).bind fun pjAccId ↦ ?_
        split
        · exact aloof_registerFailed _
        · exact aloof_registerStarted _ _

/-- `cmd_account_unregister` is. -/
theorem aloof_cmdAccountUnregister : Aloof (cmdAccountUnregister p) := by
  unfold cmdAccountUnregister
  split
  · exact aloof_pure _
  · refine (aloof_withLock (aloof_get_bind fun s ↦ ?_)).bind fun found ↦ ?_
    · exact (aloof_takePjsipAccId _ _).bind fun _ ↦ aloof_pure _
    · dsimp only
      split
      · exact aloof_pure _
      · refine (aloof_forgetPjsipAccount _ _).bind fun _ ↦ ?_
        exact (aloof_pushRegState _ _).bind fun _ ↦ aloof_pure _

/-- `cmd_account_delete_profile` is. -/
theorem aloof_cmdAccountDeleteProfile : Aloof (cmdAccountDeleteProfile p) := by
  have delete (uuid : String) : Aloof (shimDeleteProfile uuid) := by
    unfold shimDeleteProfile
    split
    · exact (aloof_shim rfl).bind fun _ ↦ aloof_pure _
    · exact aloof_pure _
  unfold cmdAccountDeleteProfile
  split
  · exact aloof_pure _
  · refine (aloof_withLock (aloof_get_bind fun s ↦ ?_)).bind fun found ↦ ?_
    · exact (aloof_modify _).bind fun _ ↦ aloof_pure _
    · split
      · exact aloof_pure _
      · refine (aloof_forgetPjsipAccount _ _).bind fun _ ↦ (delete _).bind fun _ ↦ ?_
        refine (aloof_logEngine _ _).bind fun _ ↦ (aloof_pushRegState _ _).bind fun _ ↦ ?_
        exact (aloof_pushEvent (by decide) _).bind fun _ ↦ aloof_pure _


/-- `cmd_account_set_security` is. -/
theorem aloof_cmdAccountSetSecurity : Aloof (cmdAccountSetSecurity p) := by
  unfold cmdAccountSetSecurity
  split
  · exact aloof_pure _
  · refine (aloof_withLock (aloof_get_bind fun s ↦ ?_)).bind fun found ↦ ?_
    · split
      · exact aloof_pure _
      · exact (aloof_modify _).bind fun _ ↦ aloof_pure _
    · split
      · exact aloof_pure _
      · exact (aloof_pushEvent (by decide) _).bind fun _ ↦ aloof_pure _

/-- `cmd_account_set_codec` is: the shim stores a codec for no account. -/
theorem aloof_cmdAccountSetCodec : Aloof (cmdAccountSetCodec p) := by
  have push (payload : Json) : Aloof (pushEvent "CodecUpdated" payload) :=
    aloof_pushEvent (by decide) payload
  have set (call : ShimCall) (hcall : isSettingOp call = false) (fields : List (String × Json)) :
      Aloof (runSetter call none .notFound "CodecUpdated" fields) := by
    unfold runSetter
    refine (aloof_shim hcall).bind fun rc ↦ ?_
    split
    · exact aloof_pure _
    · exact (push _).bind fun _ ↦ aloof_pure _
  unfold cmdAccountSetCodec
  split
  · unfold accountSetter accountPjsipId
    dsimp only
    refine (aloof_withLock (aloof_get_bind fun _ ↦ aloof_pure _)).bind fun pjId ↦ ?_
    split
    · exact (push _).bind fun _ ↦ aloof_pure _
    · split
      · exact aloof_pure _
      · next hcall =>
        obtain ⟨codec, -, rfl⟩ := Option.map_eq_some_iff.mp hcall
        exact set _ rfl _
  · exact aloof_pure _

end Commands

/-- The PJSIP id of an account, if it is known and registered. -/
def pjsipAccIdOf (accounts : AList fun _ : String ↦ Account) (accountId : String) : Option Int :=
  (accounts.lookup accountId).bind (·.pjsipAccId)

/-- What a setter of one account can return and do to settings. `pjId` is the PJSIP id of the
account. -/
inductive SetterRun (e : Env) (call : Int → Option ShimCall) (pjId : Option Int) :
    EngineErrorCode → List SettingAct → Prop where
  | unregistered (hid : pjId = none) : SetterRun e call pjId .ok []
  | nul {id : Int} (hid : pjId = some id) (hcall : call id = none) :
      SetterRun e call pjId .invalidUtf8 []
  | called {id : Int} {c : ShimCall} {rc : EngineErrorCode} (hid : pjId = some id)
      (hcall : call id = some c) (hrc : rc = .ok ↔ e.rc c = 0) :
      SetterRun e call pjId rc [.stored c]

/-- The fields that a getter of one account reports. `pjId` is the PJSIP id of the account. -/
def getterFields (e : Env) (call : Int → ShimCall)
    (read : ShimCall → Env → List (String × Json)) (fallback : Env → List (String × Json))
    (pjId : Option Int) : List (String × Json) :=
  match pjId with
  | some id => if e.rc (call id) = 0 then read (call id) e else fallback e
  | none => fallback e

section Rules

variable {α β : Type} {e : Env} {s : Engine}
  {R : β → List SettingAct → (AList fun _ : String ↦ Account) → Prop}

/-- Actions that have nothing to do with settings do not show. -/
theorem trace_of_noSetting {t : List Action} (h : ∀ a ∈ t, NoSetting a) :
    settingView.trace t = [] :=
  List.filterMap_eq_nil_iff.mpr h

/-- An aloof program shows nothing. -/
theorem trace_of_aloof {x : Eng α} (h : Aloof x) (e : Env) (s : Engine) :
    settingView.trace (x.run e s).trace = [] :=
  trace_of_noSetting (h.run e s)

/-- A log entry that comes first drops out. -/
theorem settings_logEngine_bind {level : LogLevel} {message : String} {f : Unit → Eng β}
    (h : ∀ s₁, s₁.accounts = s.accounts → settingView.Yields (f ()) e s₁ R) :
    settingView.Yields (logEngine level message >>= f) e s R := by
  have steady : Traced.Admits (Steady []) (logEngine level message) :=
    tame_logEngine canLog_nil level message
  have haccounts := congrArg AccountTables.accounts (steady.run e s).1
  exact View.yields_bind rfl rfl (trace_of_aloof (aloof_logEngine level message) e s)
    (h _ haccounts)

/-- The PJSIP id of an account. -/
theorem settings_accountPjsipId_bind {accountId : String} {f : Option Int → Eng β}
    (h : settingView.Yields (f (pjsipAccIdOf s.accounts accountId)) e s R) :
    settingView.Yields (accountPjsipId accountId >>= f) e s R := by
  have ht : settingView.trace ((accountPjsipId accountId).run e s).trace = [] := rfl
  exact View.yields_bind rfl rfl ht h

/-- A shim call that stores a setting. -/
theorem settings_shim_bind {call : ShimCall} (hcall : isSettingOp call = true) {f : Int → Eng β}
    (h : settingView.Yields (f (e.rc call)) e s fun b acts ↦ R b (.stored call :: acts)) :
    settingView.Yields (shim call >>= f) e s R := by
  have ht : settingView.trace ((shim call).run e s).trace = [.stored call] := by
    simp [shim, View.trace, settingView, settingAct, hcall]
  exact View.yields_bind rfl rfl ht h

/-- An event that reports a setting. -/
theorem settings_report_bind {type : String} (htype : type ∈ settingResults) {payload : Json}
    {f : Unit → Eng β}
    (h : ∀ s₁, settingView.Yields (f ()) e s₁ fun b acts ↦ R b (.reported type payload :: acts)) :
    settingView.Yields (pushEvent type payload >>= f) e s R := by
  have ht : settingView.trace ((pushEvent type payload).run e s).trace =
      [.reported type payload] := by
    have hdelivery := trace_of_aloof (aloof_deliverEvent type payload) e s
    have hrun : ((pushEvent type payload).run e s).trace =
        [.event type payload] ++ ((deliverEvent type payload).run e s).trace := rfl
    rw [hrun, View.trace_append, hdelivery]
    simp [View.trace, settingView, settingAct, htype]
  exact View.yields_bind rfl rfl ht (h _)

end Rules

section Settings

variable {e : Env} {s : Engine} {accountId type : String} {failLog : Option String}
  {failure : EngineErrorCode} {payload : List (String × Json)}

/-- The report that a setting was stored is none of its value. -/
theorem yields_push (htype : type ∉ settingResults) (rc : EngineErrorCode) (s : Engine)
    (fields : List (String × Json)) :
    settingView.Yields (pushEvent type (.obj fields) >>= fun _ ↦ pure rc) e s
      fun rc' acts _ ↦ rc' = rc ∧ acts = [] :=
  View.yields_bind rfl rfl (trace_of_aloof (aloof_pushEvent htype (.obj fields)) e s) ⟨rfl, rfl⟩

/-- A setter that calls the shim. -/
theorem yields_runSetter {call : ShimCall} (hcall : isSettingOp call = true)
    (hfailure : failure ≠ .ok) (htype : type ∉ settingResults) :
    settingView.Yields (runSetter call failLog failure type payload) e s
      fun rc acts _ ↦ (rc = .ok ↔ e.rc call = 0) ∧ acts = [.stored call] := by
  unfold runSetter
  refine settings_shim_bind hcall ?_
  dsimp only
  by_cases hrc : e.rc call = 0
  · rw [if_neg (not_not_intro hrc)]
    refine (yields_push htype .ok s _).imp ?_
    rintro rc acts - ⟨rfl, rfl⟩
    exact ⟨iff_of_true rfl hrc, rfl⟩
  · rw [if_pos hrc]
    cases failLog with
    | none => exact View.yields_pure ⟨iff_of_false hfailure hrc, rfl⟩
    | some what =>
      refine settings_logEngine_bind fun s₁ _ ↦ ?_
      exact View.yields_pure ⟨iff_of_false hfailure hrc, rfl⟩

/-- A setter of one account. -/
theorem yields_accountSetter {call : Int → Option ShimCall}
    (hcall : ∀ id, ∀ c ∈ call id, isSettingOp c = true) (hfailure : failure ≠ .ok)
    (htype : type ∉ settingResults) :
    settingView.Yields (accountSetter accountId call failLog failure type payload) e s
      fun rc acts _ ↦ SetterRun e call (pjsipAccIdOf s.accounts accountId) rc acts := by
  unfold accountSetter
  refine settings_accountPjsipId_bind ?_
  cases hid : pjsipAccIdOf s.accounts accountId with
  | none =>
    refine (yields_push htype .ok s _).imp ?_
    rintro rc acts - ⟨rfl, rfl⟩
    exact .unregistered rfl
  | some id =>
    dsimp only
    cases hc : call id with
    | none => exact View.yields_pure (.nul rfl hc)
    | some c =>
      refine (yields_runSetter (hcall id c hc) hfailure htype).imp ?_
      rintro rc acts - ⟨hrc, rfl⟩
      exact .called rfl hc hrc

/-- A getter of one account. -/
theorem yields_accountGetter {p : Json} {call : Int → ShimCall}
    {read : ShimCall → Env → List (String × Json)} {fallback : Env → List (String × Json)}
    (hcall : ∀ id, isSettingOp (call id) = false) (htype : type ∈ settingResults) :
    settingView.Yields (accountGetter p call read fallback type) e s fun _ acts _ ↦
      acts = (p.get "account_id").asStr.toList.map fun accountId ↦
        .reported type (.obj (("account_id", .str accountId) ::
          getterFields e call read fallback (pjsipAccIdOf s.accounts accountId))) := by
  unfold accountGetter
  cases haccount : (p.get "account_id").asStr with
  | none => exact View.yields_pure rfl
  | some accountId =>
    have fields : settingView.Yields (accountFields accountId call read fallback) e s
        fun fields acts _ ↦ acts = [] ∧
          fields = getterFields e call read fallback (pjsipAccIdOf s.accounts accountId) := by
      unfold accountFields
      refine settings_accountPjsipId_bind ?_
      cases pjsipAccIdOf s.accounts accountId with
      | none => exact View.yields_ask_bind (View.yields_pure ⟨rfl, rfl⟩)
      | some id =>
        exact View.yields_bind rfl rfl (trace_of_aloof (aloof_shim (hcall id)) e s)
          (View.yields_ask_bind (View.yields_pure ⟨rfl, rfl⟩))
    refine fields.bind fun _ _ s₁ h ↦ ?_
    rw [h.1, h.2]
    exact settings_report_bind htype fun _ ↦ View.yields_pure rfl

end Settings

end PacketDial.System
