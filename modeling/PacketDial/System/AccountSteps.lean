import PacketDial.System.AccountSpec
import PacketDial.System.StepSpec

/-!
# What one step changes of the accounts

The inversion of a step for the account tables: every operation makes one of the changes that
`AccountChange` lists. The direct entry point for a registration makes an upsert first.
-/

namespace PacketDial.System

open PacketDial.Core PacketDial.Lib

/-- The payload that `engine_register` upserts. -/
def registerPayload (accountId user pass domain : String) : Json :=
  .obj [("uuid", .str accountId), ("display_name", .str user), ("server", .str domain),
    ("username", .str user), ("password", .str pass)]

/-- The texts of `engine_register`, if they are given and the engine is initialised. -/
def registerTexts (i : Input) (s : Engine) : Option (String × String × String × String) :=
  match i.op with
  | .register accountId user pass domain =>
    if s.initialized then
      accountId.toStr.bind fun accountId ↦ user.toStr.bind fun user ↦ pass.toStr.bind fun pass ↦
        domain.toStr.map fun domain ↦ (accountId, user, pass, domain)
    else none
  | _ => none

/-- The account tables that the command of an input finds. -/
def foundTables (i : Input) (s : Engine) : AccountTables :=
  match registerTexts i s with
  | some (accountId, user, pass, domain) =>
    upsertTables (registerPayload accountId user pass domain) (accountTables s)
  | none => accountTables s

/-- The command, of those that can be on accounts, that an input dispatches last. -/
def accountCommandOf (i : Input) (s : Engine) : Option (String × Json) :=
  match i.op with
  | .register .. =>
    (registerTexts i s).map fun texts ↦ ("AccountRegister", .obj [("uuid", .str texts.1)])
  | .unregister accountId =>
    if s.initialized then
      accountId.toStr.map fun id ↦ ("AccountUnregister", .obj [("uuid", .str id)])
    else none
  | _ => commandOf i s

/-- The account that a registration callback is about, and the state it reports. -/
def reportedAccount (i : Input) (s : Engine) : Option (String × RegistrationState) :=
  match i.op with
  | .onRegState pjAccId expires statusCode reason =>
    (s.pjsipAccMap.lookup pjAccId).map fun id ↦
      (id, reportedRegState expires statusCode
        ((reasonText "pjsip_on_reg_state" reason).run i.env s).value)
  | _ => none

/-- The input dispatches an `AccountRegister`. -/
def Registers (i : Input) (s : Engine) : Prop :=
  (accountCommandOf i s).map Prod.fst = some "AccountRegister"

/-- What an input makes of the account tables `T` that its command finds. -/
inductive AccountChange (i : Input) (s : Engine) (T : AccountTables) :
    List ShimCall → AccountTables → Prop where
  | still (hcmd : ¬ Registers i s) : AccountChange i s T [] T
  | upsert {p : Json} (hcmd : ¬ Registers i s) : AccountChange i s T [] (upsertTables p T)
  | secure {id : String} {old new : Account} (hcmd : ¬ Registers i s)
      (hl : T.accounts.lookup id = some old) (hpj : new.pjsipAccId = old.pjsipAccId)
      (hstate : new.regState = old.regState) (huuid : new.uuid = old.uuid) :
      AccountChange i s T [] (T.setAccount id new)
  | report {id : String} {old : Account} {state : RegistrationState}
      (hreport : reportedAccount i s = some (id, state)) (hl : T.accounts.lookup id = some old) :
      AccountChange i s T [] (T.setAccount id { old with regState := state })
  | register {p : Json} {rc : EngineErrorCode} {acts : List ShimCall} {T' : AccountTables}
      (hcmd : accountCommandOf i s = some ("AccountRegister", p))
      (h : RegisterChange i.env p T rc acts T') : AccountChange i s T acts T'
  | unregister {p : Json} {id : String} {a : Account}
      (hcmd : accountCommandOf i s = some ("AccountUnregister", p))
      (hkey : accountKey p = some id) (hl : T.accounts.lookup id = some a) :
      AccountChange i s T (removeOps a.pjsipAccId)
        ((T.setAccount id (released .unregistered a)).unmapAcc a.pjsipAccId)
  | delete {p : Json} {id : String} {a : Account}
      (hcmd : accountCommandOf i s = some ("AccountDeleteProfile", p))
      (hkey : (p.get "uuid").asStr = some id) (hl : T.accounts.lookup id = some a) :
      AccountChange i s T (removeOps a.pjsipAccId)
        ((T.dropAccount id).unmapAcc a.pjsipAccId)
  | shutdown (hop : i.op = .shutdown) (hinit : s.initialized = true) :
      AccountChange i s T [.pdShutdown] { T with accMap := ∅ }

section Steps

variable {i : Input} {s : Engine}

/-- An input whose command has another name does not register. -/
theorem not_registers {cmd : String} {p : Json} (hcmd : accountCommandOf i s = some (cmd, p))
    (hne : cmd ≠ "AccountRegister") : ¬ Registers i s := by
  intro h
  rw [Registers, hcmd] at h
  exact hne (Option.some.inj h)

/-- An input without a command does not register. -/
theorem not_registers_of_none (hcmd : accountCommandOf i s = none) : ¬ Registers i s := by
  intro h
  rw [Registers, hcmd] at h
  cases h

/-- The command made for the first call is no registration. -/
theorem commandOnFirst_ne {q : Call → Bool} {cmd : String} {rest : List (String × Json)}
    (hne : cmd ≠ "AccountRegister") :
    (commandOnFirst i s q cmd rest).map Prod.fst ≠ some "AccountRegister" := by
  unfold commandOnFirst
  split
  · cases (tables s).firstId i.env q with
    | none => simp
    | some id => simpa using hne
  · simp

/-- A mild operation does not register. -/
theorem not_registers_of_mildOp (h : mildOp i.op = true) : ¬ Registers i s := by
  unfold Registers accountCommandOf commandOf
  cases hop : i.op with
  | shutdown | sendCommand | ipcLine | register | unregister | onRegState =>
    rw [hop] at h
    cases h
  | makeCall accountId number =>
    dsimp only
    split
    · cases accountId.toStr with
      | none => simp
      | some a => cases number.toStr <;> simp
    · simp
  | hangup | answerCall | setMute | setHold => exact commandOnFirst_ne (by decide)
  | sendDtmf digits =>
    dsimp only
    cases digits.toStr with
    | none => simp
    | some text => exact commandOnFirst_ne (by decide)
  | _ => simp

/-- A dispatched command, seen through the account view. -/
theorem change_dispatchAccount {cmd : String} {p : Json} {s₁ : Engine}
    (hcmd : accountCommandOf i s = some (cmd, p)) :
    accountView.Yields (dispatchCommand cmd p) i.env s₁ fun _ acts T ↦
      AccountChange i s (accountTables s₁) acts T := by
  by_cases hacc : cmd ∈ accountCommands
  · simp only [accountCommands, List.mem_cons, List.not_mem_nil, or_false] at hacc
    rcases hacc with rfl | rfl | rfl | rfl | rfl
    · refine View.yields_map (View.Yields.imp (yields_cmdAccountUpsert p) ?_)
      rintro rc acts T ⟨-, rfl, rfl⟩
      exact .upsert (not_registers hcmd (by decide))
    · refine View.yields_map (View.Yields.imp (yields_cmdAccountRegister p) ?_)
      exact fun rc acts T h ↦ .register hcmd h
    · refine View.yields_map (View.Yields.imp (yields_cmdAccountUnregister p) ?_)
      rintro rc acts T (⟨rfl, rfl⟩ | ⟨id, a, hkey, hl, rfl, rfl⟩)
      · exact .still (not_registers hcmd (by decide))
      · exact .unregister hcmd hkey hl
    · refine View.yields_map (View.Yields.imp (yields_cmdAccountSetSecurity p) ?_)
      rintro rc acts T ⟨rfl, rfl | ⟨id, old, new, hl, huuid, hpj, hstate, rfl⟩⟩
      · exact .still (not_registers hcmd (by decide))
      · exact .secure (not_registers hcmd (by decide)) hl hpj hstate huuid
    · refine View.yields_map (View.Yields.imp (yields_cmdAccountDeleteProfile p) ?_)
      rintro rc acts T (⟨rfl, rfl⟩ | ⟨id, a, hkey, hl, rfl, rfl⟩)
      · exact .still (not_registers hcmd (by decide))
      · exact .delete hcmd hkey hl
  · refine yields_steady (mild_dispatchCommand p hacc (fun _ ↦ inferInstance) fun _ ↦ inferInstance)
      fun _ ↦ .still (not_registers hcmd ?_)
    rintro rfl
    exact hacc (by decide)

/-- Without a registration there is no upsert in front of the command. -/
theorem foundTables_of_none (h : registerTexts i s = none) :
    foundTables i s = accountTables s := by
  rw [foundTables, h]

/-- A registration through the direct entry point. -/
theorem change_registration {accountId user pass domain : String}
    (htexts : registerTexts i s = some (accountId, user, pass, domain))
    (hcmd : accountCommandOf i s = some ("AccountRegister", .obj [("uuid", .str accountId)])) :
    accountView.Yields (do
      let rc ← dispatchCode "AccountUpsert" (registerPayload accountId user pass domain)
      if rc ≠ 0 then return rc
      else dispatchCode "AccountRegister" (.obj [("uuid", .str accountId)])) i.env s
      fun _ acts T ↦ AccountChange i s (foundTables i s) acts T := by
  have upsert : accountView.Yields
      (dispatchCode "AccountUpsert" (registerPayload accountId user pass domain)) i.env s
      fun rc acts T ↦ rc = 0 ∧ acts = [] ∧ T = foundTables i s := by
    refine View.yields_map (View.yields_map (View.Yields.imp (yields_cmdAccountUpsert _) ?_))
    rintro rc acts T ⟨rfl, rfl, rfl⟩
    rw [foundTables, htexts]
    exact ⟨rfl, rfl, rfl⟩
  refine View.Yields.bind upsert ?_
  rintro rc acts s₁ ⟨rfl, rfl, hs₁⟩
  rw [if_neg (by simp)]
  refine View.yields_map (View.Yields.imp (change_dispatchAccount hcmd) ?_)
  intro result acts T h
  rw [← show accountTables s₁ = _ from hs₁]
  exact h

/-- A command of a C caller. -/
theorem change_sendCommand {cmdType payload : CPtr} (hop : i.op = .sendCommand cmdType payload) :
    accountView.Yields (engineSendCommand cmdType payload) i.env s fun _ acts T ↦
      AccountChange i s (accountTables s) acts T := by
  have still (h : accountCommandOf i s = none) : AccountChange i s (accountTables s) []
      (accountTables s) := .still (not_registers_of_none h)
  unfold engineSendCommand
  refine yields_withText (fun cmd hc ↦ yields_withText (fun text ht ↦ ?_)
    fun ht ↦ still (by simp [accountCommandOf, commandOf, hop, ht]))
    fun hc ↦ still (by simp [accountCommandOf, commandOf, hop, hc])
  refine yields_whenInitialized (fun hinit ↦ View.yields_ask_bind ?_)
    fun hinit ↦ still (by simp [accountCommandOf, commandOf, hop, hinit])
  cases hp : i.env.parseJson text with
  | none =>
    exact View.yields_pure (still (by simp [accountCommandOf, commandOf, hop, ht, hp]))
  | some p =>
    refine View.yields_map (change_dispatchAccount ?_)
    simp [accountCommandOf, commandOf, hop, hinit, hc, ht, hp]

/-- A line of an IPC client. -/
theorem change_ipcLine {client : Nat} {line : String} (hop : i.op = .ipcLine client line) :
    accountView.Yields (Core.ipcLine client line) i.env s fun _ acts T ↦
      AccountChange i s (accountTables s) acts T := by
  unfold Core.ipcLine
  refine View.yields_ask_bind ?_
  cases hv : i.env.parseJson line with
  | none =>
    refine View.yields_pure (.still (not_registers_of_none ?_))
    simp [accountCommandOf, commandOf, hop, hv]
  | some v =>
    have hcmd : accountCommandOf i s = some ((v.get "type").asStr.getD "", v.get "payload") := by
      simp [accountCommandOf, commandOf, hop, hv]
    dsimp only
    refine View.Yields.bind (change_dispatchAccount hcmd) fun r acts s₁ h ↦ ?_
    refine View.yields_still ?_ fun _ ↦ ?_
    · split
      · exact Traced.admits_emit fun _ ↦ ⟨rfl, rfl⟩
      · exact Traced.admits_pure _
    · rw [List.append_nil]
      exact h

/-- A registration callback. -/
theorem change_pjsipOnRegState {pjAccId expires statusCode : Int} {reason : CPtr}
    (hop : i.op = .onRegState pjAccId expires statusCode reason) :
    accountView.Yields (pjsipOnRegState pjAccId expires statusCode reason) i.env s fun _ acts T ↦
      AccountChange i s (accountTables s) acts T := by
  have text : Traced.Admits (Steady []) (reasonText "pjsip_on_reg_state" reason) :=
    tame_reasonText (by decide) _ _
  have canLog : CanLog [] := by decide
  have still : AccountChange i s (accountTables s) [] (accountTables s) :=
    .still (not_registers_of_none (by rw [accountCommandOf, hop, commandOf, hop]))
  unfold pjsipOnRegState
  refine View.yields_read_bind text (P := (· = ((reasonText "pjsip_on_reg_state" reason).run
    i.env s).value)) rfl fun reasonStr s₁ hreason hs₁ ↦ ?_
  have route : accountView.Yields (withLock .pjsipAccMap do
      return (← Traced.get).pjsipAccMap.lookup pjAccId) i.env s₁ fun found acts T ↦
        found = s.pjsipAccMap.lookup pjAccId ∧ acts = [] ∧ T = accountTables s := by
    refine accounts_withLock (View.yields_get_bind (View.yields_pure ⟨?_, rfl, hs₁⟩))
    exact congrArg (fun T : AccountTables ↦ T.accMap.lookup pjAccId) hs₁
  refine View.Yields.bind route ?_
  rintro found acts s₂ ⟨rfl, rfl, hs₂⟩
  cases hmap : s.pjsipAccMap.lookup pjAccId with
  | none =>
    refine yields_steady (tame_logEngine canLog _ _) fun _ ↦ ?_
    rw [show accountTables s₂ = _ from hs₂]
    exact still
  | some id =>
    have hreport :
        reportedAccount i s = some (id, reportedRegState expires statusCode reasonStr) := by
      rw [reportedAccount, hop]
      dsimp only
      rw [hmap, hreason]
      rfl
    dsimp only
    have write : accountView.Yields
        (withLock .accounts (setRegState id (reportedRegState expires statusCode reasonStr)))
        i.env s₂ fun _ acts T ↦ acts = [] ∧ AccountChange i s (accountTables s) [] T := by
      cases hl : s₂.accounts.lookup id with
      | none =>
        refine accounts_withLock (View.yields_get_bind ?_)
        rw [hl]
        refine View.yields_pure ⟨rfl, ?_⟩
        rw [show accountView.state s₂ = _ from hs₂]
        exact still
      | some old =>
        refine accounts_withLock (View.Yields.imp (yields_setRegState _ hl) ?_)
        rintro _ acts T ⟨rfl, rfl⟩
        rw [show accountTables s₂ = _ from hs₂]
        exact ⟨rfl, .report hreport ((lookup_of_tables hs₂ id).symm.trans hl)⟩
    refine View.Yields.bind write ?_
    rintro _ acts s₃ ⟨rfl, hs₃⟩
    refine yields_steady_bind (tame_pushRegState canLog.2 (by decide) _ _) fun _ s₄ hs₄ ↦ ?_
    refine yields_steady (tame_logEngine canLog _ _) fun _ ↦ ?_
    rw [hs₄]
    exact hs₃

/-- What a shutdown does: nothing before `engine_init`. -/
theorem accounts_engineShutdown :
    accountView.Yields engineShutdown i.env s fun _ acts T ↦
      if s.initialized then acts = [.pdShutdown] ∧ T = { accountTables s with accMap := ∅ }
      else acts = [] ∧ T = accountTables s := by
  have canLog : CanLog [] := by decide
  unfold engineShutdown
  refine View.yields_get_bind ?_
  dsimp only
  refine View.yields_modify_bind ?_
  cases hinit : s.initialized with
  | false =>
    rw [if_pos (by rfl)]
    refine yields_steady_bind (tame_logEngine canLog _ _) fun _ s₁ hs₁ ↦ View.yields_pure ?_
    rw [if_neg (by simp)]
    exact ⟨rfl, hs₁⟩
  | true =>
    rw [if_neg (by simp)]
    refine yields_steady_bind (tame_logEngine canLog _ _) fun _ s₁ hs₁ ↦ ?_
    have clear : accountView.Yields (withLock .pjsipAccMap <|
        Traced.modify fun s ↦ { s with pjsipAccMap := ∅ }) i.env s₁ fun _ acts T ↦
          acts = [] ∧ T = { accountTables s with accMap := ∅ } := by
      rw [← show accountTables s₁ = accountTables s from hs₁]
      exact accounts_withLock ⟨rfl, rfl⟩
    refine View.Yields.bind clear ?_
    rintro _ acts s₂ ⟨rfl, hs₂⟩
    have calls : Traced.Admits (Steady []) (withLock .pjsipCallMap <|
        Traced.modify fun s ↦ { s with pjsipCallMap := ∅ }) :=
      blind_withLock accountView (by decide) (mild_modify (by intro; rfl) (by intro; rfl))
    refine yields_steady_bind calls fun _ s₃ hs₃ ↦ ?_
    refine accounts_discard_shim_bind rfl (View.yields_pure ?_)
    rw [if_pos rfl]
    exact ⟨rfl, hs₃.trans hs₂⟩

/-- The shutdown. -/
theorem change_engineShutdown (hop : i.op = .shutdown) :
    accountView.Yields engineShutdown i.env s fun _ acts T ↦
      AccountChange i s (accountTables s) acts T := by
  refine View.Yields.imp accounts_engineShutdown fun _ acts T h ↦ ?_
  split at h
  · next hinit =>
    obtain ⟨rfl, rfl⟩ := h
    exact .shutdown hop hinit
  · obtain ⟨rfl, rfl⟩ := h
    exact .still (not_registers_of_none (by rw [accountCommandOf, hop, commandOf, hop]))

/-- What a step changes of the accounts. -/
theorem account_step (i : Input) (s : Engine) :
    accountView.Yields i.op.run i.env s fun _ acts T ↦
      AccountChange i s (foundTables i s) acts T := by
  have found (hop : ∀ accountId user pass domain, i.op ≠ .register accountId user pass domain) :
      foundTables i s = accountTables s := by
    apply foundTables_of_none
    unfold registerTexts
    cases hop' : i.op with
    | register accountId user pass domain => exact absurd hop' (hop _ _ _ _)
    | _ => rfl
  cases hop : i.op with
  | shutdown =>
    rw [found (by simp [hop])]
    exact View.yields_discard (change_engineShutdown hop)
  | sendCommand cmdType payload =>
    rw [found (by simp [hop])]
    exact View.yields_discard (change_sendCommand hop)
  | ipcLine client line =>
    rw [found (by simp [hop])]
    exact change_ipcLine hop
  | register accountId user pass domain =>
    have gated (h : registerTexts i s = none) : AccountChange i s (foundTables i s) []
        (accountTables s) := by
      rw [foundTables_of_none h]
      exact .still (not_registers_of_none (by rw [accountCommandOf, hop, h]; rfl))
    refine View.yields_discard (yields_withText (fun a ha ↦ ?_) fun ha ↦ gated ?_)
    · refine yields_withText (fun u hu ↦ yields_withText (fun w hw ↦ ?_) fun hw ↦ gated ?_)
        fun hu ↦ gated ?_
      · refine yields_withText (fun d hd ↦ yields_whenInitialized (fun hinit ↦ ?_)
          fun hinit ↦ gated ?_) fun hd ↦ gated ?_
        · have htexts : registerTexts i s = some (a, u, w, d) := by
            simp [registerTexts, hop, hinit, ha, hu, hw, hd]
          refine change_registration htexts ?_
          rw [accountCommandOf, hop]
          dsimp only
          rw [htexts]
          rfl
        · simp [registerTexts, hop, hinit]
        · simp [registerTexts, hop, hd]
      · simp [registerTexts, hop, hw]
      · simp [registerTexts, hop, hu]
    · simp [registerTexts, hop, ha]
  | unregister accountId =>
    rw [found (by simp [hop])]
    have still (h : accountCommandOf i s = none) : AccountChange i s (accountTables s) []
        (accountTables s) := .still (not_registers_of_none h)
    refine View.yields_discard (yields_withText (fun id hid ↦ ?_)
      fun hid ↦ still (by simp [accountCommandOf, hop, hid]))
    refine yields_whenInitialized (fun hinit ↦ ?_)
      fun hinit ↦ still (by simp [accountCommandOf, hop, hinit])
    refine View.yields_map (change_dispatchAccount ?_)
    simp [accountCommandOf, hop, hinit, hid]
  | onRegState pjAccId expires statusCode reason =>
    rw [found (by simp [hop])]
    exact change_pjsipOnRegState hop
  | _ =>
    rw [found (by simp [hop])]
    exact yields_steady (mild_op rfl (fun _ ↦ inferInstance) fun _ ↦ inferInstance) fun _ ↦
      .still (not_registers_of_mildOp (by rw [hop]; rfl))

end Steps

end PacketDial.System
