import PacketDial.Lib.Paths
import PacketDial.System.Machine
import PacketDial.System.SettingSpec

/-!
# The settings of accounts in the shim

The shim keeps the settings of accounts in arrays that are indexed by the PJSIP id
(`core_rust/src/shim/pjsip_shim.c:65–92`). Adding and removing an account leaves the arrays as they
are, PJSIP gives a free id to the next account, and an account without an id is skipped.
-/

namespace PacketDial.Shim

open PacketDial.Core PacketDial.Lib PacketDial.System

/-- The settings that an account has a `Set` and a `Get` command for. -/
inductive Setting where
  | forwarding
  | lookupUrl
  | codecPriority
  | autoAnswer
  | dtmfMethod
  deriving DecidableEq

namespace Setting

/-- The `Set` command. -/
def set : Setting → Json → Eng EngineErrorCode
  | .forwarding => cmdAccountSetForwarding
  | .lookupUrl => cmdAccountSetLookupUrl
  | .codecPriority => cmdAccountSetCodecPriority
  | .autoAnswer => cmdAccountSetAutoAnswer
  | .dtmfMethod => cmdAccountSetDtmfMethod

/-- The `Get` command. -/
def get : Setting → Json → Eng EngineErrorCode
  | .forwarding => cmdAccountGetForwarding
  | .lookupUrl => cmdAccountGetLookupUrl
  | .codecPriority => cmdAccountGetCodecPriority
  | .autoAnswer => cmdAccountGetAutoAnswer
  | .dtmfMethod => cmdAccountGetDtmfMethod

/-- The event in which `Get` reports. -/
def resultType : Setting → String
  | .forwarding => "ForwardingResult"
  | .lookupUrl => "LookupUrlResult"
  | .codecPriority => "CodecPriorityResult"
  | .autoAnswer => "AutoAnswerResult"
  | .dtmfMethod => "DtmfMethodResult"

/-- An optional text of a payload. -/
def text (p : Json) (key : String) : String := (p.get key).asStr.getD ""

/-- An optional number of a payload. -/
def number (p : Json) (key : String) : Int := (p.get key).asI64.getD 0

/-- The value that a payload gives to `Set`, as the fields in which `Get` reports one. -/
def given (k : Setting) (parseJson : String → Option Json) (p : Json) : List (String × Json) :=
  match k with
  | .forwarding =>
    [("fwd_uri", .str (text p "fwd_uri")), ("fwd_flags", .ofI32 (number p "fwd_flags"))]
  | .lookupUrl => [("lookup_url", .str (text p "lookup_url"))]
  | .codecPriority =>
    let priorities := text p "codec_priorities"
    [("codec_priorities", (parseJson priorities).getD (.str priorities))]
  | .autoAnswer => autoAnswerFields ((p.get "enabled").asBool.getD false) (number p "delay_ms")
  | .dtmfMethod => [("dtmf_method", .ofI32 (number p "dtmf_method"))]

/-- The arrays of the shim can hold the value: a text has room in 256 bytes with its end, a number
is an `i32`, and a list of codecs is empty, since the shim stores none. -/
def Fits (k : Setting) (parseJson : String → Option Json) (p : Json) : Prop :=
  match k with
  | .forwarding => (text p "fwd_uri").utf8ByteSize < 256 ∧
      asI32 (number p "fwd_flags") = number p "fwd_flags"
  | .lookupUrl => (text p "lookup_url").utf8ByteSize < 256
  | .codecPriority => parseJson (text p "codec_priorities") = some (.arr [])
  | .autoAnswer => asI32 (number p "delay_ms") = number p "delay_ms"
  | .dtmfMethod => asI32 (number p "dtmf_method") = number p "dtmf_method"

/-- The call of the shim that `Set` makes for an account with the PJSIP id `pjId`. -/
def setCall (k : Setting) (p : Json) (pjId : Int) : Option ShimCall :=
  match k with
  | .forwarding => (cString (text p "fwd_uri")).map fun uri ↦
      .pdAccSetForward pjId uri ((i32Field p "fwd_flags").getD 0)
  | .lookupUrl => (cString (text p "lookup_url")).map (.pdAccSetLookupUrl pjId)
  | .codecPriority => (p.get "codec_priorities").asStr.bind fun priorities ↦
      (cString priorities).map (.pdAccSetCodecPriority pjId)
  | .autoAnswer => (p.get "enabled").asBool.map fun enabled ↦
      .pdAccSetAutoAnswer pjId enabled ((i32Field p "delay_ms").getD 0)
  | .dtmfMethod => (i32Field p "dtmf_method").map (.pdAccSetDtmfMethod pjId)

end Setting

/-- `MAX_ACCOUNTS`, which is `PJSUA_MAX_ACC` (`engine_pjsip/pjproject_config_site.h:27`). -/
def maxAccounts : Int := 4

/-- The test that every function on the arrays starts with. -/
def InRange (accId : Int) : Prop := 0 ≤ accId ∧ accId < maxAccounts

instance (accId : Int) : Decidable (InRange accId) := instDecidableAnd

/-- The arrays of the shim (`pjsip_shim.c:71–92`). -/
structure SettingStore where
  fwdUri : Int → ByteArray
  fwdFlags : Int → Int
  userData : Int → ByteArray
  autoAnswer : Int → Bool × Int
  dtmfMethod : Int → Int

/-- The arrays as static storage starts out. -/
def SettingStore.initial : SettingStore where
  fwdUri _ := .empty
  fwdFlags _ := 0
  userData _ := .empty
  autoAnswer _ := (false, 0)
  dtmfMethod _ := 0

/-- What `strncpy` leaves of a text in an array of `size` bytes that ends in a NUL. -/
def strncpy (size : Nat) (text : String) : ByteArray := text.toByteArray.extract 0 (size - 1)

/-- What a call stores (`pjsip_shim.c:1846–1867`, `1953–1972`, `2088–2102`, `2144–2158`,
`2177–2190`, `2252–2270`). `accIds` are the accounts that `pjsua_enum_accs` gives. -/
def SettingStore.apply (accIds : List Int) (st : SettingStore) : ShimCall → SettingStore
  | .pdAccSetForward accId fwdUri fwdFlags =>
    if InRange accId then
      { st with
        fwdUri := Function.update st.fwdUri accId (strncpy 256 fwdUri)
        fwdFlags := Function.update st.fwdFlags accId fwdFlags }
    else st
  | .pdAccSetLookupUrl accId lookupUrl =>
    if InRange accId then
      { st with userData := Function.update st.userData accId (strncpy 256 lookupUrl) }
    else st
  | .pdAccSetAutoAnswer accId enabled delayMs =>
    if InRange accId then
      { st with autoAnswer := Function.update st.autoAnswer accId (enabled, delayMs) }
    else st
  | .pdAccSetDtmfMethod accId dtmfMethod =>
    if InRange accId then
      { st with dtmfMethod := Function.update st.dtmfMethod accId dtmfMethod }
    else st
  | .pdSetGlobalDtmfMethod dtmfMethod =>
    { st with dtmfMethod := fun accId ↦
        if accId ∈ accIds ∧ accId ≠ -1 ∧ accId < maxAccounts then dtmfMethod
        else st.dtmfMethod accId }
  | _ => st

/-- The index that a call on the arrays is given. -/
def arrayIndex : ShimCall → Option Int
  | .pdAccSetForward accId .. | .pdAccGetForward accId | .pdAccSetLookupUrl accId _
  | .pdAccGetLookupUrl accId | .pdAccSetCodecPriority accId _ | .pdAccGetCodecPriority accId
  | .pdAccSetAutoAnswer accId .. | .pdAccGetAutoAnswer accId | .pdAccSetDtmfMethod accId _
  | .pdAccGetDtmfMethod accId => some accId
  | _ => none

/-- The text that the engine reads from a buffer of `size` bytes with a text in it and NULs after
it. A text cut inside a character is read as `garbled`. -/
def bufferOf (size : Nat) (bytes : ByteArray) (garbled : String) : String :=
  match String.fromUTF8? bytes with
  | some text => text ++ String.ofList (List.replicate (size - bytes.size) '\x00')
  | none => garbled

/-- The environment in which the calls on the arrays answer from them (`pjsip_shim.c:1868–1885`,
`1974–1988`, `2104–2117`, `2160–2175`, `2192–2205`). The list of codecs is always empty. -/
def SettingStore.answer (st : SettingStore) (env : Env) : Env where
  clock := env.clock
  rc call := match arrayIndex call with
    | some accId => if InRange accId then 0 else -1
    | none => env.rc call
  outText call := match call with
    | .pdAccGetForward accId => bufferOf 256 (st.fwdUri accId) (env.outText call)
    | .pdAccGetLookupUrl accId => bufferOf 512 (st.userData accId) (env.outText call)
    | .pdAccGetCodecPriority _ => "[]" ++ String.ofList (List.replicate 1022 '\x00')
    | _ => env.outText call
  outInts call := match call with
    | .pdAccGetForward accId => (st.fwdFlags accId, 0)
    | .pdAccGetAutoAnswer accId =>
      (if (st.autoAnswer accId).1 then 1 else 0, (st.autoAnswer accId).2)
    | .pdAccGetDtmfMethod accId => (st.dtmfMethod accId, 0)
    | _ => env.outInts call
  outStream := env.outStream
  outDevices := env.outDevices
  fileSize := env.fileSize
  pathExtension := env.pathExtension
  parseJson text := if text = "[]" then some (.arr []) else env.parseJson text
  alive := env.alive
  callOrder := env.callOrder
  accountOrder := env.accountOrder

/-- The commands on accounts and their settings. -/
inductive AccountCommand where
  | upsert (p : Json)
  | register (p : Json)
  | unregister (p : Json)
  | setSecurity (p : Json)
  | setCodec (p : Json)
  | deleteProfile (p : Json)
  | set (k : Setting) (p : Json)
  | get (k : Setting) (p : Json)
  | setGlobalDtmfMethod (p : Json)

/-- The code of a command. -/
def AccountCommand.run : AccountCommand → Eng EngineErrorCode
  | .upsert p => cmdAccountUpsert p
  | .register p => cmdAccountRegister p
  | .unregister p => cmdAccountUnregister p
  | .setSecurity p => cmdAccountSetSecurity p
  | .setCodec p => cmdAccountSetCodec p
  | .deleteProfile p => cmdAccountDeleteProfile p
  | .set k p => k.set p
  | .get k p => k.get p
  | .setGlobalDtmfMethod p => cmdSetGlobalDtmfMethod p

/-- The engine and the arrays of the shim. -/
structure Desk where
  engine : Engine
  store : SettingStore

/-- The engine has been initialised, and no command was sent yet. -/
def Desk.initial : Desk := ⟨{ Engine.initial with initialized := true }, SettingStore.initial⟩

/-- A command, with what its run gets from outside and the accounts that PJSIP has. -/
structure AccountMove where
  command : AccountCommand
  env : Env
  accIds : List Int

/-- The run of a command, the shim answering from its arrays. -/
def AccountMove.outcome (m : AccountMove) (t : Desk) : Outcome Engine Action EngineErrorCode :=
  m.command.run.run (t.store.answer m.env) t.engine

/-- The arrays after the shim calls of a run. -/
def storeAfter (accIds : List Int) (trace : List Action) (st : SettingStore) : SettingStore :=
  trace.foldl (fun st act ↦ match act with
    | .shim call => st.apply accIds call
    | _ => st) st

/-- One step: a command that comes to its end. -/
def deskStep (t : Desk) (m : AccountMove) : Option Desk :=
  let out := m.outcome t
  if completes out.trace then some ⟨out.state, storeAfter m.accIds out.trace t.store⟩ else none

/-- The PJSIP id of an account. -/
def Desk.pjsipId (t : Desk) (accountId : String) : Option Int :=
  pjsipAccIdOf t.engine.accounts accountId

/-- A step leaves the setting `k` of `accountId` alone, whose value is stored under `pjId`: `Set`
does not succeed on it, nor is it called for an account that now has that id, and a `DTMF` method
is not overridden. -/
def Spares (k : Setting) (accountId : String) (pjId : Int) (t : Desk) (m : AccountMove) : Prop :=
  (∀ p, m.command = .set k p → ∀ other, (p.get "account_id").asStr = some other →
    if other = accountId then (m.outcome t).value ≠ .ok else t.pjsipId other ≠ some pjId) ∧
  (k = .dtmfMethod → ∀ p, m.command ≠ .setGlobalDtmfMethod p)

section Texts

/-- The NULs after a text without NULs are trimmed. -/
theorem bufferText_padded {text : String} (h : '\x00' ∉ text.toList) (n : Nat) :
    bufferText (text ++ String.ofList (List.replicate n '\x00')) = text := by
  have hpad : ∀ c ∈ (List.replicate n '\x00').reverse, (c == '\x00') = true := by
    intro c hc
    rw [List.mem_reverse] at hc
    rw [List.eq_of_mem_replicate hc]
    rfl
  have htext : text.toList.reverse.dropWhile (· == '\x00') = text.toList.reverse := by
    cases hr : text.toList.reverse with
    | nil => rfl
    | cons c rest =>
      have hc : c ∈ text.toList := by
        rw [← List.mem_reverse, hr]
        exact List.mem_cons_self
      have hne : (c == '\x00') = false := beq_eq_false_iff_ne.mpr fun heq ↦ h (heq ▸ hc)
      rw [List.dropWhile_cons_of_neg (by rw [hne]; exact Bool.false_ne_true)]
  unfold bufferText
  rw [String.toList_append, String.toList_ofList, List.reverse_append,
    List.dropWhile_append_of_pos hpad, htext, List.reverse_reverse, String.ofList_toList]

/-- A short text is stored whole. -/
theorem strncpy_eq {size : Nat} {text : String} (h : text.utf8ByteSize < size) :
    strncpy size text = text.toByteArray := by
  have hmax : max (size - 1) text.toByteArray.size = size - 1 := by
    apply max_eq_left
    rw [String.size_toByteArray]
    omega
  unfold strncpy
  rw [← hmax]
  exact ByteArray.extract_zero_max_size

/-- A text that was stored whole is read as it was. -/
theorem bufferText_bufferOf {text : String} (h : '\x00' ∉ text.toList) (size : Nat)
    (garbled : String) : bufferText (bufferOf size text.toByteArray garbled) = text := by
  have hdecode : String.fromUTF8? text.toByteArray = some text := by
    unfold String.fromUTF8?
    rw [dif_pos text.isValidUTF8]
    rfl
  unfold bufferOf
  rw [hdecode]
  exact bufferText_padded h _

/-- A text that is passed to the shim has no NULs. -/
theorem cString_eq_some {text text' : String} (h : cString text = some text') :
    text' = text ∧ '\x00' ∉ text.toList := by
  unfold cString at h
  split at h
  · cases h
  · next hnul => exact ⟨(Option.some.inj h).symm, hnul⟩

end Texts

/-- The arrays hold under a PJSIP id what `Set` stores for a payload. -/
def SettingStore.Holds (st : SettingStore) (k : Setting) (p : Json) (pjId : Int) : Prop :=
  match k with
  | .forwarding => '\x00' ∉ (Setting.text p "fwd_uri").toList ∧
      st.fwdUri pjId = strncpy 256 (Setting.text p "fwd_uri") ∧
      st.fwdFlags pjId = (i32Field p "fwd_flags").getD 0
  | .lookupUrl => '\x00' ∉ (Setting.text p "lookup_url").toList ∧
      st.userData pjId = strncpy 256 (Setting.text p "lookup_url")
  | .codecPriority => True
  | .autoAnswer => ∃ enabled, (p.get "enabled").asBool = some enabled ∧
      st.autoAnswer pjId = (enabled, (i32Field p "delay_ms").getD 0)
  | .dtmfMethod => i32Field p "dtmf_method" = some (st.dtmfMethod pjId)

section Arrays

variable {k k' : Setting} {p q : Json} {pjId accId : Int} {accIds : List Int} {st : SettingStore}
  {call : ShimCall}

/-- The call of a setter is one on the arrays. -/
theorem setCall_spec (h : k.setCall p pjId = some call) :
    isSettingOp call = true ∧ arrayIndex call = some pjId := by
  cases k with
  | forwarding | lookupUrl =>
    obtain ⟨_, -, rfl⟩ := Option.map_eq_some_iff.mp h
    exact ⟨rfl, rfl⟩
  | codecPriority =>
    obtain ⟨_, -, hpriorities⟩ := Option.bind_eq_some_iff.mp h
    obtain ⟨_, -, rfl⟩ := Option.map_eq_some_iff.mp hpriorities
    exact ⟨rfl, rfl⟩
  | autoAnswer | dtmfMethod =>
    obtain ⟨_, -, rfl⟩ := Option.map_eq_some_iff.mp h
    exact ⟨rfl, rfl⟩

/-- After `Set` the arrays hold the setting. -/
theorem holds_set (h : k.setCall p pjId = some call) (hrange : InRange pjId) :
    (st.apply accIds call).Holds k p pjId := by
  cases k with
  | forwarding =>
    obtain ⟨uri, huri, rfl⟩ := Option.map_eq_some_iff.mp h
    obtain ⟨rfl, hnul⟩ := cString_eq_some huri
    rw [SettingStore.apply, if_pos hrange]
    exact ⟨hnul, Function.update_self _ _ _, Function.update_self _ _ _⟩
  | lookupUrl =>
    obtain ⟨url, hurl, rfl⟩ := Option.map_eq_some_iff.mp h
    obtain ⟨rfl, hnul⟩ := cString_eq_some hurl
    rw [SettingStore.apply, if_pos hrange]
    exact ⟨hnul, Function.update_self _ _ _⟩
  | codecPriority => trivial
  | autoAnswer =>
    obtain ⟨enabled, henabled, rfl⟩ := Option.map_eq_some_iff.mp h
    rw [SettingStore.apply, if_pos hrange]
    exact ⟨enabled, henabled, Function.update_self _ _ _⟩
  | dtmfMethod =>
    obtain ⟨method, hmethod, rfl⟩ := Option.map_eq_some_iff.mp h
    rw [SettingStore.apply, if_pos hrange]
    have hself := Function.update_self pjId method st.dtmfMethod
    exact hmethod.trans (congrArg some hself.symm)

/-- A call that is refused stores nothing. -/
theorem apply_of_not_inRange (h : arrayIndex call = some accId) (hrange : ¬InRange accId) :
    st.apply accIds call = st := by
  cases call with
  | pdAccSetForward | pdAccSetLookupUrl | pdAccSetAutoAnswer | pdAccSetDtmfMethod =>
    cases h
    rw [SettingStore.apply, if_neg hrange]
  | pdSetGlobalDtmfMethod => cases h
  | _ => rfl

/-- A `Set` of another setting or under another PJSIP id leaves it there. -/
theorem holds_set_other (hst : st.Holds k p pjId) (h : k'.setCall q accId = some call)
    (hother : k' = k → accId ≠ pjId) : (st.apply accIds call).Holds k p pjId := by
  by_cases hrange : InRange accId
  swap
  · rw [apply_of_not_inRange (setCall_spec h).2 hrange]
    exact hst
  cases k' with
  | forwarding =>
    obtain ⟨uri, -, rfl⟩ := Option.map_eq_some_iff.mp h
    rw [SettingStore.apply, if_pos hrange]
    cases k with
    | forwarding =>
      have hne := (hother rfl).symm
      refine ⟨hst.1, ?_, ?_⟩
      · exact (Function.update_of_ne hne _ _).trans hst.2.1
      · exact (Function.update_of_ne hne _ _).trans hst.2.2
    | _ => exact hst
  | lookupUrl =>
    obtain ⟨url, -, rfl⟩ := Option.map_eq_some_iff.mp h
    rw [SettingStore.apply, if_pos hrange]
    cases k with
    | lookupUrl =>
      have hne := (hother rfl).symm
      exact ⟨hst.1, (Function.update_of_ne hne _ _).trans hst.2⟩
    | _ => exact hst
  | codecPriority =>
    obtain ⟨_, -, hpriorities⟩ := Option.bind_eq_some_iff.mp h
    obtain ⟨_, -, rfl⟩ := Option.map_eq_some_iff.mp hpriorities
    exact hst
  | autoAnswer =>
    obtain ⟨enabled, -, rfl⟩ := Option.map_eq_some_iff.mp h
    rw [SettingStore.apply, if_pos hrange]
    cases k with
    | autoAnswer =>
      have hne := (hother rfl).symm
      obtain ⟨enabled', henabled, heq⟩ := hst
      exact ⟨enabled', henabled, (Function.update_of_ne hne _ _).trans heq⟩
    | _ => exact hst
  | dtmfMethod =>
    obtain ⟨method, -, rfl⟩ := Option.map_eq_some_iff.mp h
    rw [SettingStore.apply, if_pos hrange]
    cases k with
    | dtmfMethod =>
      have hne := (hother rfl).symm
      exact hst.trans (congrArg some (Function.update_of_ne hne _ _).symm)
    | _ => exact hst

/-- A global `DTMF` method leaves the other settings where they are. -/
theorem holds_setGlobalDtmf (hst : st.Holds k p pjId) (hk : k ≠ .dtmfMethod) (method : Int) :
    (st.apply accIds (.pdSetGlobalDtmfMethod method)).Holds k p pjId := by
  cases k with
  | dtmfMethod => exact absurd rfl hk
  | _ => exact hst

/-- A call that stores no setting leaves the arrays as they are. -/
theorem apply_of_not_settingOp (h : isSettingOp call = false) : st.apply accIds call = st := by
  cases call with
  | pdAccSetForward | pdAccSetLookupUrl | pdAccSetAutoAnswer | pdAccSetDtmfMethod
  | pdSetGlobalDtmfMethod => cases h
  | _ => rfl

end Arrays

section Commands

variable {k : Setting} {p q : Json} {pjId : Int} {accIds : List Int} {st : SettingStore}
  {env e : Env} {s : Engine} {accountId : String} {parseJson : String → Option Json}

/-- A number that an `i32` holds is passed on as it is. -/
theorem i32Field_getD (p : Json) (key : String) :
    (i32Field p key).getD 0 = asI32 (Setting.number p key) := by
  unfold i32Field Setting.number
  cases (p.get key).asI64 with
  | none => rfl
  | some n => rfl

/-- What `Set` can return and do. -/
theorem yields_set (k : Setting) : settingView.Yields (k.set p) e s fun rc acts _ ↦
    rc ≠ .ok ∧ acts = [] ∨ ∃ accountId, (p.get "account_id").asStr = some accountId ∧
      SetterRun e (k.setCall p) (pjsipAccIdOf s.accounts accountId) rc acts := by
  have invalid : settingView.Yields (pure EngineErrorCode.invalidJson) e s fun rc acts _ ↦
      rc ≠ .ok ∧ acts = [] ∨ ∃ accountId, (p.get "account_id").asStr = some accountId ∧
        SetterRun e (k.setCall p) (pjsipAccIdOf s.accounts accountId) rc acts :=
    View.yields_pure (Or.inl ⟨by decide, rfl⟩)
  have setter (s₁ : Engine) (accountId : String) {failLog : Option String} {type : String}
      {payload : List (String × Json)} {call : Int → Option ShimCall}
      (haccounts : s₁.accounts = s.accounts)
      (haccount : (p.get "account_id").asStr = some accountId) (hcall : call = k.setCall p)
      (htype : type ∉ settingResults) :
      settingView.Yields (accountSetter accountId call failLog .internalError type payload) e s₁
        fun rc acts _ ↦ rc ≠ .ok ∧ acts = [] ∨
          ∃ accountId, (p.get "account_id").asStr = some accountId ∧
            SetterRun e (k.setCall p) (pjsipAccIdOf s.accounts accountId) rc acts := by
    subst hcall
    refine (yields_accountSetter (fun _ _ h ↦ (setCall_spec h).1) (by decide) htype).imp ?_
    intro rc acts _ h
    rw [haccounts] at h
    exact Or.inr ⟨accountId, haccount, h⟩
  cases k with
  | forwarding =>
    change settingView.Yields (cmdAccountSetForwarding p) e s _
    unfold cmdAccountSetForwarding
    split
    · exact invalid
    · next haccount =>
      refine settings_logEngine_bind fun s₁ h ↦ ?_
      exact setter s₁ _ h haccount rfl (by decide)
  | lookupUrl =>
    change settingView.Yields (cmdAccountSetLookupUrl p) e s _
    unfold cmdAccountSetLookupUrl
    split
    · exact invalid
    · next haccount =>
      refine settings_logEngine_bind fun s₁ h ↦ ?_
      exact setter s₁ _ h haccount rfl (by decide)
  | codecPriority =>
    change settingView.Yields (cmdAccountSetCodecPriority p) e s _
    unfold cmdAccountSetCodecPriority
    split
    · next haccount hpriorities =>
      refine setter s _ rfl haccount ?_ (by decide)
      funext pjId
      unfold Setting.setCall
      rw [hpriorities]
      rfl
    · exact invalid
  | autoAnswer =>
    change settingView.Yields (cmdAccountSetAutoAnswer p) e s _
    unfold cmdAccountSetAutoAnswer
    split
    · next haccount henabled =>
      refine setter s _ rfl haccount ?_ (by decide)
      funext pjId
      unfold Setting.setCall
      rw [henabled]
      rfl
    · exact invalid
  | dtmfMethod =>
    change settingView.Yields (cmdAccountSetDtmfMethod p) e s _
    unfold cmdAccountSetDtmfMethod
    split
    · next haccount hmethod =>
      refine setter s _ rfl haccount ?_ (by decide)
      funext pjId
      unfold Setting.setCall
      rw [hmethod]
      rfl
    · exact invalid

/-- A getter of an account with a PJSIP id for which the shim answers. -/
theorem yields_answered {call : Int → ShimCall} {read : ShimCall → Env → List (String × Json)}
    {fallback : Env → List (String × Json)} {type : String}
    {fields : List (String × Json)} (hcall : ∀ id, isSettingOp (call id) = false)
    (htype : type ∈ settingResults) (haccount : (p.get "account_id").asStr = some accountId)
    (hid : pjsipAccIdOf s.accounts accountId = some pjId) (hrc : e.rc (call pjId) = 0)
    (hread : read (call pjId) e = fields) :
    settingView.Yields (accountGetter p call read fallback type) e s fun _ acts _ ↦
      acts = [.reported type (.obj (("account_id", .str accountId) :: fields))] := by
  refine (yields_accountGetter hcall htype).imp ?_
  intro _ acts _ hacts
  rw [haccount, Option.toList_some, List.map_singleton, hid] at hacts
  unfold getterFields at hacts
  dsimp only at hacts
  rw [if_pos hrc, hread] at hacts
  exact hacts

/-- `Get` reports the value that the arrays hold. -/
theorem yields_get (hst : st.Holds k p pjId) (hfits : k.Fits parseJson p) (hrange : InRange pjId)
    (haccount : (q.get "account_id").asStr = some accountId)
    (hid : pjsipAccIdOf s.accounts accountId = some pjId) :
    settingView.Yields (k.get q) (st.answer env) s fun _ acts _ ↦
      acts = [.reported k.resultType
        (.obj (("account_id", .str accountId) :: k.given parseJson p))] := by
  cases k with
  | forwarding =>
    obtain ⟨hnul, huri, hflags⟩ := hst
    refine yields_answered (fun _ ↦ rfl) (by decide) haccount hid (if_pos hrange) ?_
    have htext : bufferText (bufferOf 256 (st.fwdUri pjId) (env.outText (.pdAccGetForward pjId))) =
        Setting.text p "fwd_uri" := by
      rw [huri, strncpy_eq hfits.1]
      exact bufferText_bufferOf hnul _ _
    have hnumber : st.fwdFlags pjId = Setting.number p "fwd_flags" := by
      rw [hflags, i32Field_getD, hfits.2]
    unfold SettingStore.answer Setting.given
    dsimp only
    rw [htext, hnumber]
  | lookupUrl =>
    obtain ⟨hnul, hurl⟩ := hst
    refine yields_answered (fun _ ↦ rfl) (by decide) haccount hid (if_pos hrange) ?_
    have htext : bufferText (bufferOf 512 (st.userData pjId)
        (env.outText (.pdAccGetLookupUrl pjId))) = Setting.text p "lookup_url" := by
      rw [hurl, strncpy_eq hfits]
      exact bufferText_bufferOf hnul _ _
    unfold SettingStore.answer Setting.given
    dsimp only
    rw [htext]
  | codecPriority =>
    refine yields_answered (fun _ ↦ rfl) (by decide) haccount hid (if_pos hrange) ?_
    have htext : bufferText ("[]" ++ String.ofList (List.replicate 1022 '\x00')) = "[]" :=
      bufferText_padded (by decide) 1022
    have hgiven : parseJson (Setting.text p "codec_priorities") = some (.arr []) := hfits
    unfold codecFields SettingStore.answer Setting.given
    dsimp only
    rw [htext, if_pos rfl, hgiven]
    rfl
  | autoAnswer =>
    obtain ⟨enabled, henabled, hcell⟩ := hst
    refine yields_answered (fun _ ↦ rfl) (by decide) haccount hid (if_pos hrange) ?_
    have hnumber : asI32 (Setting.number p "delay_ms") = Setting.number p "delay_ms" := hfits
    have hout : (st.answer env).outInts (.pdAccGetAutoAnswer pjId) =
        (if enabled then 1 else 0, Setting.number p "delay_ms") := by
      unfold SettingStore.answer
      dsimp only
      rw [hcell, i32Field_getD, hnumber]
    unfold Setting.given
    dsimp only
    rw [hout, henabled]
    cases enabled <;> rfl
  | dtmfMethod =>
    have hmethod : i32Field p "dtmf_method" = some (st.dtmfMethod pjId) := hst
    refine yields_answered (fun _ ↦ rfl) (by decide) haccount hid (if_pos hrange) ?_
    have hnumber : st.dtmfMethod pjId = Setting.number p "dtmf_method" := by
      have hget := i32Field_getD p "dtmf_method"
      rw [hmethod] at hget
      exact hget.trans hfits
    unfold SettingStore.answer Setting.given
    dsimp only
    rw [hnumber]

end Commands

/-- The arrays after what a run shows of settings. -/
def applyActs (accIds : List Int) (acts : List SettingAct) (st : SettingStore) : SettingStore :=
  acts.foldl (fun st act ↦ match act with
    | .stored call => st.apply accIds call
    | .reported .. => st) st

/-- What a command shows of settings. -/
def AccountMove.acts (m : AccountMove) (t : Desk) : List SettingAct :=
  settingView.trace (m.outcome t).trace

section Runs

variable {k : Setting} {p q : Json} {pjId : Int} {accIds : List Int} {st : SettingStore}
  {acts : List SettingAct} {accountId : String} {t u : Desk} {m n : AccountMove}

/-- What a run shows of settings decides what it stores. -/
theorem storeAfter_eq (trace : List Action) (st : SettingStore) :
    storeAfter accIds trace st = applyActs accIds (settingView.trace trace) st := by
  induction trace generalizing st with
  | nil => rfl
  | cons act trace ih =>
    have hstep (st' : SettingStore) (hact : settingView.act act = none)
        (hst : storeAfter accIds (act :: trace) st = storeAfter accIds trace st') (h : st' = st) :
        storeAfter accIds (act :: trace) st =
          applyActs accIds (settingView.trace (act :: trace)) st := by
      rw [hst, ih, h]
      unfold View.trace
      rw [List.filterMap_cons_none hact]
    cases act with
    | shim call =>
      by_cases hcall : isSettingOp call = true
      · have hact : settingView.act (.shim call) = some (.stored call) := if_pos hcall
        unfold View.trace
        rw [List.filterMap_cons_some hact]
        exact ih _
      · have hact : settingView.act (.shim call) = none := if_neg hcall
        exact hstep _ hact rfl (apply_of_not_settingOp (Bool.eq_false_iff.mpr hcall))
    | event type payload =>
      by_cases htype : type ∈ settingResults
      · have hact : settingView.act (.event type payload) = some (.reported type payload) :=
          if_pos htype
        unfold View.trace
        rw [List.filterMap_cons_some hact]
        exact ih _
      · exact hstep _ (if_neg htype) rfl rfl
    | _ => exact hstep _ rfl rfl rfl

/-- Calls that keep a setting where it is, one after the other. -/
theorem holds_applyActs (hst : st.Holds k p pjId) (hacts : ∀ call, .stored call ∈ acts →
      ∀ st : SettingStore, st.Holds k p pjId → (st.apply accIds call).Holds k p pjId) :
    (applyActs accIds acts st).Holds k p pjId := by
  induction acts generalizing st with
  | nil => exact hst
  | cons act acts ih =>
    refine ih ?_ fun call h ↦ hacts call (List.mem_cons_of_mem _ h)
    cases act with
    | stored call => exact hacts call List.mem_cons_self st hst
    | reported => exact hst

/-- The state after a step. -/
theorem deskStep_eq (h : deskStep t m = some u) :
    u.engine = (m.outcome t).state ∧ u.store = applyActs m.accIds (m.acts t) t.store := by
  unfold deskStep at h
  dsimp only at h
  split at h
  · cases h
    exact ⟨rfl, storeAfter_eq _ _⟩
  · cases h

/-- The calls on the arrays are answered by them. -/
theorem rc_answer (st : SettingStore) (env : Env) {call : ShimCall}
    (h : arrayIndex call = some pjId) :
    (st.answer env).rc call = 0 ↔ InRange pjId := by
  unfold SettingStore.answer
  dsimp only
  rw [h]
  dsimp only
  by_cases hrange : InRange pjId
  · rw [if_pos hrange]
    exact iff_of_true rfl hrange
  · rw [if_neg hrange]
    exact iff_of_false (by decide) hrange

/-- What a `Set` command can return and do. -/
theorem set_run (hcommand : m.command = .set k p) :
    (m.outcome t).value ≠ .ok ∧ m.acts t = [] ∨
      ∃ accountId, (p.get "account_id").asStr = some accountId ∧
        SetterRun (t.store.answer m.env) (k.setCall p) (t.pjsipId accountId) (m.outcome t).value
          (m.acts t) := by
  obtain ⟨command, env, accIds⟩ := m
  cases hcommand
  exact yields_set k

/-- A successful `Set` for an account with a PJSIP id stores the setting. -/
theorem holds_of_set (hcommand : m.command = .set k p)
    (haccount : (p.get "account_id").asStr = some accountId)
    (hid : t.pjsipId accountId = some pjId) (hok : (m.outcome t).value = .ok)
    (hs : deskStep t m = some u) : InRange pjId ∧ u.store.Holds k p pjId := by
  have hstore := (deskStep_eq hs).2
  rcases set_run (t := t) hcommand with ⟨hne, -⟩ | ⟨accountId', haccount', hsetter⟩
  · exact absurd hok hne
  rw [haccount] at haccount'
  cases haccount'
  rw [hid, hok] at hsetter
  generalize m.acts t = acts at hsetter hstore
  cases hsetter with
  | unregistered hnone => cases hnone
  | called hid' hcall hrc =>
    cases hid'
    have hrange : InRange pjId := (rc_answer _ _ (setCall_spec hcall).2).mp (hrc.mp rfl)
    rw [hstore]
    exact ⟨hrange, holds_set hcall hrange⟩

/-- A `Set` command that spares a setting keeps it. -/
theorem Spares.set (h : Spares k accountId pjId t m) (hrange : InRange pjId) {k' : Setting}
    (hcommand : m.command = .set k' q) {call : ShimCall} (hcall : .stored call ∈ m.acts t)
    (hst : st.Holds k p pjId) : (st.apply accIds call).Holds k p pjId := by
  rcases set_run (t := t) hcommand with ⟨-, hacts⟩ | ⟨other, haccount, hsetter⟩
  · rw [hacts] at hcall
    exact absurd hcall List.not_mem_nil
  generalize hrc : (m.outcome t).value = rc at hsetter
  generalize m.acts t = acts at hsetter hcall
  cases hsetter with
  | unregistered | nul => exact absurd hcall List.not_mem_nil
  | @called id call' _ hid hset hiff =>
    cases List.mem_singleton.mp hcall
    refine holds_set_other hst hset fun heq hsame ↦ ?_
    subst heq hsame
    have hspares := h.1 q hcommand other haccount
    split at hspares
    · have hzero := (rc_answer t.store m.env (setCall_spec hset).2).mpr hrange
      exact hspares (hrc.trans (hiff.mpr hzero))
    · exact hspares hid

/-- A command that has nothing to do with settings shows none. -/
theorem acts_of_aloof (h : Aloof m.command.run) (t : Desk) : m.acts t = [] :=
  trace_of_aloof h _ _

/-- What a global `DTMF` method stores. -/
theorem acts_of_setGlobalDtmf (hcommand : m.command = .setGlobalDtmfMethod q) {call : ShimCall}
    (hcall : .stored call ∈ m.acts t) : ∃ method, call = .pdSetGlobalDtmfMethod method := by
  obtain ⟨command, env, accIds⟩ := m
  cases hcommand
  have hyields : settingView.Yields (cmdSetGlobalDtmfMethod q) (t.store.answer env) t.engine
      fun _ acts _ ↦ .stored call ∈ acts → ∃ method, call = .pdSetGlobalDtmfMethod method := by
    unfold cmdSetGlobalDtmfMethod
    split
    · exact View.yields_pure fun h ↦ absurd h List.not_mem_nil
    · next method _ =>
      refine (yields_runSetter rfl (by decide) (by decide)).imp ?_
      rintro _ acts - ⟨-, rfl⟩ h
      cases List.mem_singleton.mp h
      exact ⟨method, rfl⟩
  exact hyields hcall

/-- A getter stores nothing. -/
theorem acts_of_get (hcommand : m.command = .get k q) {call : ShimCall} :
    .stored call ∉ m.acts t := by
  obtain ⟨command, env, accIds⟩ := m
  cases hcommand
  have getter {call' : Int → ShimCall} {read : ShimCall → Env → List (String × Json)}
      {fallback : Env → List (String × Json)} {type : String}
      (hcall : ∀ id, isSettingOp (call' id) = false) (htype : type ∈ settingResults) :
      settingView.Yields (accountGetter q call' read fallback type) (t.store.answer env) t.engine
        fun _ acts _ ↦ SettingAct.stored call ∉ acts := by
    refine (yields_accountGetter hcall htype).imp ?_
    rintro _ acts - rfl h
    obtain ⟨accountId, -, heq⟩ := List.mem_map.mp h
    cases heq
  cases k with
  | _ => exact getter (fun _ ↦ rfl) (by decide)

/-- A step that spares a setting keeps it. -/
theorem holds_step (h : Spares k accountId pjId t m) (hrange : InRange pjId)
    (hst : t.store.Holds k p pjId) (hs : deskStep t m = some u) : u.store.Holds k p pjId := by
  rw [(deskStep_eq hs).2]
  have quiet (haloof : Aloof m.command.run) :
      (applyActs m.accIds (m.acts t) t.store).Holds k p pjId := by
    rw [acts_of_aloof haloof]
    exact hst
  cases hcommand : m.command with
  | upsert q => exact quiet (hcommand ▸ aloof_cmdAccountUpsert q)
  | register q => exact quiet (hcommand ▸ aloof_cmdAccountRegister q)
  | unregister q => exact quiet (hcommand ▸ aloof_cmdAccountUnregister q)
  | setSecurity q => exact quiet (hcommand ▸ aloof_cmdAccountSetSecurity q)
  | setCodec q => exact quiet (hcommand ▸ aloof_cmdAccountSetCodec q)
  | deleteProfile q => exact quiet (hcommand ▸ aloof_cmdAccountDeleteProfile q)
  | set k' q =>
    exact holds_applyActs hst fun call hcall st hst' ↦ h.set hrange hcommand hcall hst'
  | get k' q =>
    exact holds_applyActs hst fun call hcall ↦ absurd hcall (acts_of_get hcommand)
  | setGlobalDtmfMethod q =>
    refine holds_applyActs hst fun call hcall st hst' ↦ ?_
    obtain ⟨method, rfl⟩ := acts_of_setGlobalDtmf hcommand hcall
    exact holds_setGlobalDtmf hst' (fun hk ↦ h.2 hk q hcommand) method

/-- An event that reports a setting is one that is seen. -/
theorem reported_mem_acts {type : String} (htype : type ∈ settingResults) (payload : Json) :
    .event type payload ∈ (m.outcome t).trace ↔ .reported type payload ∈ m.acts t := by
  unfold AccountMove.acts View.trace
  rw [List.mem_filterMap]
  constructor
  · exact fun h ↦ ⟨_, h, if_pos htype⟩
  · rintro ⟨act, hmem, hact⟩
    cases act with
    | shim call =>
      obtain ⟨-, heq⟩ := Option.ite_none_right_eq_some.mp hact
      cases heq
    | event type' payload' =>
      obtain ⟨-, heq⟩ := Option.ite_none_right_eq_some.mp hact
      cases heq
      exact hmem
    | _ => cases hact

/-- The reports of `Get` have types of their own. -/
theorem resultType_mem (k : Setting) : k.resultType ∈ settingResults := by
  cases k <;> decide

/-- For every run of account commands: after a successful `Set` for an account that has a PJSIP id,
whose value fits the arrays of the shim, `Get` for that account reports that value and no other
wherever the account has the same PJSIP id, if every step on the way leaves what is stored under
that id alone. -/
theorem setting_kept {parseJson : String → Option Json} {moves : List AccountMove} {v : Desk}
    (hset : m.command = .set k p) (haccount : (p.get "account_id").asStr = some accountId)
    (hid : t.pjsipId accountId = some pjId) (hok : (m.outcome t).value = .ok)
    (hfits : k.Fits parseJson p) (hs : deskStep t m = some u)
    (path : Path deskStep (Spares k accountId pjId) u moves v)
    (hget : n.command = .get k q) (haccount' : (q.get "account_id").asStr = some accountId)
    (hid' : v.pjsipId accountId = some pjId) (payload : Json) :
    .event k.resultType payload ∈ (n.outcome v).trace ↔
      payload = .obj (("account_id", .str accountId) :: k.given parseJson p) := by
  obtain ⟨hrange, hholds⟩ := holds_of_set hset haccount hid hok hs
  have hkept : v.store.Holds k p pjId :=
    path.invariant (I := fun w ↦ w.store.Holds k p pjId) hholds
      fun w i w' hw hC hstep ↦ holds_step hC hrange hw hstep
  have hacts : n.acts v = [.reported k.resultType
      (.obj (("account_id", .str accountId) :: k.given parseJson p))] := by
    obtain ⟨command, env, accIds⟩ := n
    cases hget
    exact yields_get hkept hfits hrange haccount' hid'
  rw [reported_mem_acts (resultType_mem k), hacts, List.mem_singleton]
  constructor
  · intro h
    cases h
    rfl
  · rintro rfl
    rfl

/-- A command in the surroundings where every shim call returns 0: an account is given the PJSIP
id 0. -/
def quietMove (command : AccountCommand) : AccountMove := ⟨command, quietEnv, [0]⟩

/-- An account is entered. -/
def enters (accountId : String) : AccountMove :=
  quietMove (.upsert (.obj
    [("uuid", .str accountId), ("server", .str "d"), ("username", .str accountId)]))

/-- An account registers. -/
def registers (accountId : String) : AccountMove :=
  quietMove (.register (.obj [("uuid", .str accountId)]))

/-- An account unregisters. -/
def unregisters (accountId : String) : AccountMove :=
  quietMove (.unregister (.obj [("uuid", .str accountId)]))

/-- The payload that sets the `DTMF` method of an account. -/
def methodPayload (accountId : String) (method : Nat) : Json :=
  .obj [("account_id", .str accountId), ("dtmf_method", .ofNat method)]

/-- The `DTMF` method of an account is set. -/
def setsMethod (accountId : String) (method : Nat) : AccountMove :=
  quietMove (.set .dtmfMethod (methodPayload accountId method))

/-- The `DTMF` method of an account is asked for. -/
def asksMethod (accountId : String) : AccountMove :=
  quietMove (.get .dtmfMethod (.obj [("account_id", .str accountId)]))

/-- A registration between `Set` and `Get`, as an instance. -/
theorem setting_kept_reregistered :
    ∃ t u v, [enters "a", registers "a"].foldlM deskStep Desk.initial = some t ∧
      deskStep t (setsMethod "a" 2) = some u ∧
      [unregisters "a", registers "a"].foldlM deskStep u = some v ∧
      ∀ payload, .event "DtmfMethodResult" payload ∈ ((asksMethod "a").outcome v).trace ↔
        payload = .obj [("account_id", .str "a"), ("dtmf_method", .ofI32 2)] := by
  have h : ([enters "a", registers "a"].foldlM deskStep Desk.initial).bind (fun t ↦
      (deskStep t (setsMethod "a" 2)).bind fun u ↦
        ([unregisters "a", registers "a"].foldlM deskStep u).map fun v ↦
          (t.pjsipId "a", ((setsMethod "a" 2).outcome t).value, v.pjsipId "a")) =
      some (some 0, .ok, some 0) := by decide
  obtain ⟨t, ht, h⟩ := Option.bind_eq_some_iff.mp h
  obtain ⟨u, hu, h⟩ := Option.bind_eq_some_iff.mp h
  obtain ⟨v, hv, h⟩ := Option.map_eq_some_iff.mp h
  obtain ⟨hid, hrest⟩ := Prod.mk.inj h
  obtain ⟨hok, hid'⟩ := Prod.mk.inj hrest
  have hspares : ∀ i ∈ [unregisters "a", registers "a"], ∀ w,
      Spares .dtmfMethod "a" 0 w i := by
    intro i hi w
    rw [List.mem_pair] at hi
    rcases hi with rfl | rfl <;>
      exact ⟨(fun _ hset ↦ nomatch hset), (fun _ _ hset ↦ nomatch hset)⟩
  have path : Path deskStep (Spares .dtmfMethod "a" 0) u _ v :=
    (Path.of_forall hv hspares).imp fun w i h ↦ h w
  have hfits : Setting.dtmfMethod.Fits (fun _ ↦ none) (methodPayload "a" 2) := by
    change asI32 (Setting.number (methodPayload "a" 2) "dtmf_method") = _
    decide
  exact ⟨t, u, v, ht, hu, hv, setting_kept rfl rfl hid hok hfits hu path rfl rfl hid'⟩

/-- The `DTMF` methods that a run reports. -/
def reportedMethods (trace : List Action) : List (Option Int) :=
  trace.filterMap fun
    | .event type payload =>
      if type = "DtmfMethodResult" then some (payload.get "dtmf_method").asI64 else none
    | _ => none

/-- The method 2 is not reported by a run that reports only 1. -/
theorem method_not_reported {trace : List Action} (h : reportedMethods trace = [some 1]) :
    .event "DtmfMethodResult"
      (.obj [("account_id", .str "a"), ("dtmf_method", .ofI32 2)]) ∉ trace := by
  intro hmem
  have hreported : some 2 ∈ reportedMethods trace := List.mem_filterMap.mpr ⟨_, hmem, rfl⟩
  rw [h] at hreported
  exact absurd hreported (by decide)

/-- A method that was set is lost: for an account without a PJSIP id at once, and for a registered
account when another one had its id in between. -/
theorem setting_lost :
    (∃ t u, [enters "a"].foldlM deskStep Desk.initial = some t ∧
      deskStep t (setsMethod "a" 2) = some u ∧ ((setsMethod "a" 2).outcome t).value = .ok ∧
      .event "DtmfMethodResult" (.obj [("account_id", .str "a"), ("dtmf_method", .ofI32 2)]) ∉
        ((asksMethod "a").outcome u).trace) ∧
    ∃ t u v, [enters "a", enters "b", registers "a"].foldlM deskStep Desk.initial = some t ∧
      deskStep t (setsMethod "a" 2) = some u ∧ ((setsMethod "a" 2).outcome t).value = .ok ∧
      [unregisters "a", registers "b", setsMethod "b" 1, unregisters "b", registers "a"].foldlM
        deskStep u = some v ∧
      .event "DtmfMethodResult" (.obj [("account_id", .str "a"), ("dtmf_method", .ofI32 2)]) ∉
        ((asksMethod "a").outcome v).trace := by
  constructor
  · have h : ([enters "a"].foldlM deskStep Desk.initial).bind (fun t ↦
        (deskStep t (setsMethod "a" 2)).map fun u ↦
          (((setsMethod "a" 2).outcome t).value,
            reportedMethods ((asksMethod "a").outcome u).trace)) =
        some (.ok, [some 1]) := by decide
    obtain ⟨t, ht, h⟩ := Option.bind_eq_some_iff.mp h
    obtain ⟨u, hu, h⟩ := Option.map_eq_some_iff.mp h
    obtain ⟨hok, hreported⟩ := Prod.mk.inj h
    exact ⟨t, u, ht, hu, hok, method_not_reported hreported⟩
  · have h : ([enters "a", enters "b", registers "a"].foldlM deskStep Desk.initial).bind (fun t ↦
        (deskStep t (setsMethod "a" 2)).bind fun u ↦
          ([unregisters "a", registers "b", setsMethod "b" 1, unregisters "b",
              registers "a"].foldlM deskStep u).map fun v ↦
            (((setsMethod "a" 2).outcome t).value,
              reportedMethods ((asksMethod "a").outcome v).trace)) =
        some (.ok, [some 1]) := by decide
    obtain ⟨t, ht, h⟩ := Option.bind_eq_some_iff.mp h
    obtain ⟨u, hu, h⟩ := Option.bind_eq_some_iff.mp h
    obtain ⟨v, hv, h⟩ := Option.map_eq_some_iff.mp h
    obtain ⟨hok, hreported⟩ := Prod.mk.inj h
    exact ⟨t, u, v, ht, hu, hok, hv, method_not_reported hreported⟩

end Runs

end PacketDial.Shim
