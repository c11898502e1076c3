import PacketDial.System.AccountSteps

/-!
# Registrations that get stuck

`AccountRegister` moves an account to `Registering` and lets go of its PJSIP account before it
converts the texts of its configuration. A text that contains a NUL ends the command there: the
account stays in that state without a PJSIP account. With texts free of NULs an account that is
`Registering` has one.
-/

namespace PacketDial.System

open PacketDial.Core PacketDial.Lib

/-- The texts that a registration converts for the shim. -/
def registrationTexts (a : Account) : List String :=
  [sipUri a, s!"sip:{a.server}", a.username, a.password, a.authUsername, a.sipProxy, a.stunServer]

/-- One of the texts contains a NUL. -/
def HasNul (a : Account) : Prop := ∃ text ∈ registrationTexts a, '\x00' ∈ text.toList

instance (a : Account) : Decidable (HasNul a) :=
  inferInstanceAs (Decidable (∃ text ∈ _, _))

/-- The account that a command names has a text with a NUL. -/
def Unusable (T : AccountTables) (p : Json) : Prop :=
  ∃ a ∈ (accountKey p).bind T.accounts.lookup, HasNul a

/-- The input registers an account with a text that has a NUL. -/
def RegistersUnusable (s : Engine) (i : Input) : Prop :=
  ∃ command ∈ accountCommandOf i s,
    command.1 = "AccountRegister" ∧ Unusable (foundTables i s) command.2

instance (T : AccountTables) (p : Json) : Decidable (Unusable T p) :=
  inferInstanceAs (Decidable (∃ a ∈ Option.bind _ _, _))

instance (s : Engine) (i : Input) : Decidable (RegistersUnusable s i) :=
  inferInstanceAs (Decidable (∃ command ∈ accountCommandOf i s, _))

/-- An account that is `Registering` has a PJSIP account. -/
def Settled (a : Account) : Prop := a.regState = .registering → a.pjsipAccId.isSome = true

/-- No account is stuck. -/
def AccountTables.Settled (T : AccountTables) : Prop :=
  ∀ id a, T.accounts.lookup id = some a → System.Settled a

/-- An `AccountRegister` that returned `rc` and left the tables `T` ended well: it returned `Ok`
and the account has a PJSIP account, or it returned an error and the account, if there is one, is
not `Registering`. -/
def EndedWell (p : Json) (rc : EngineErrorCode) (T : AccountTables) : Prop :=
  (rc = .ok ∧ ∃ a ∈ (accountKey p).bind T.accounts.lookup, a.pjsipAccId.isSome = true) ∨
    (rc ≠ .ok ∧ ∀ a ∈ (accountKey p).bind T.accounts.lookup, a.regState ≠ .registering)

section Texts

/-- A text converts unless it contains a NUL. -/
theorem named_eq (what text : String) :
    named what text = if '\x00' ∈ text.toList then .error what else .ok text := by
  unfold named cString
  split_ifs <;> rfl

/-- A conversion fails at its own text or later. -/
theorem named_bind_error_iff {α : Type} (what text : String) (f : String → Except String α) :
    (∃ w, (named what text >>= f) = .error w) ↔
      '\x00' ∈ text.toList ∨ ∃ w, f text = .error w := by
  rw [named_eq]
  by_cases h : '\x00' ∈ text.toList
  · rw [if_pos h]
    exact ⟨fun _ ↦ Or.inl h, fun _ ↦ ⟨what, rfl⟩⟩
  · rw [if_neg h]
    exact ⟨fun hf ↦ Or.inr hf, fun hf ↦ hf.resolve_left h⟩

/-- The arguments of `pd_acc_add` exist unless a text contains a NUL. -/
theorem accAddArgs_error_iff (a : Account) : (∃ what, accAddArgs a = .error what) ↔ HasNul a := by
  unfold accAddArgs
  simp only [named_bind_error_iff]
  have last (args : AccAddArgs) : ¬ ∃ w, (pure args : Except String AccAddArgs) = .error w := by
    rintro ⟨w, h⟩
    cases h
  simp [last, HasNul, registrationTexts]

/-- An account that gets to `pd_acc_add` has no text with a NUL. -/
theorem not_hasNul_of_accAddArgs {a : Account} {args : AccAddArgs} (h : accAddArgs a = .ok args) :
    ¬ HasNul a := by
  rw [← accAddArgs_error_iff, h]
  rintro ⟨w, hw⟩
  cases hw

end Texts

section Commands

variable {e : Env} {p : Json} {T T' : AccountTables} {acts : List ShimCall} {rc : EngineErrorCode}

/-- The account that a command names. -/
theorem unusable_iff {id : String} {a : Account} (hkey : accountKey p = some id)
    (hl : T.accounts.lookup id = some a) : Unusable T p ↔ HasNul a := by
  simp [Unusable, hkey, hl]

/-- `AccountRegister` ends well if and only if the account it names has no text with a NUL. -/
theorem endedWell_of_registerChange (h : RegisterChange e p T rc acts T') :
    EndedWell p rc T' ↔ ¬ Unusable T p := by
  cases h with
  | nameless hkey => simp [EndedWell, Unusable, hkey]
  | unknown hkey hl => simp [EndedWell, Unusable, hkey, hl]
  | unusable hkey hl hargs =>
    have hnul := (accAddArgs_error_iff _).mp ⟨_, hargs⟩
    rw [unusable_iff hkey hl]
    simp [EndedWell, hkey, AccountTables.lookup_setAccount, released, hnul]
  | refused hkey hl hargs hneg =>
    have usable := not_hasNul_of_accAddArgs hargs
    rw [unusable_iff hkey hl]
    simp [EndedWell, hkey, AccountTables.lookup_setAccount, released, addFailed, usable]
  | started hkey hl hargs hpos =>
    have usable := not_hasNul_of_accAddArgs hargs
    rw [unusable_iff hkey hl]
    simp [EndedWell, hkey, AccountTables.lookup_setAccount, granted, usable]

/-- Writing a record that is not stuck. -/
theorem AccountTables.Settled.setAccount (h : T.Settled) {id : String} {a : Account}
    (ha : System.Settled a) : (T.setAccount id a).Settled := by
  intro j b hb
  rw [AccountTables.lookup_setAccount] at hb
  split_ifs at hb
  · cases hb
    exact ha
  · exact h j b hb

/-- Deleting a record. -/
theorem AccountTables.Settled.dropAccount (h : T.Settled) (id : String) :
    (T.dropAccount id).Settled := by
  intro j b hb
  rw [AccountTables.lookup_dropAccount] at hb
  split_ifs at hb
  exact h j b hb

/-- The routes do not matter. -/
theorem AccountTables.Settled.unmapAcc (h : T.Settled) (pjId : Option Int) :
    (T.unmapAcc pjId).Settled := by
  unfold AccountTables.Settled
  rw [AccountTables.unmapAcc_accounts]
  exact h

/-- An upsert leaves the state and the PJSIP id of a record alone. -/
theorem AccountTables.Settled.upsert (h : T.Settled) (p : Json) : (upsertTables p T).Settled := by
  unfold upsertTables
  cases (p.get "uuid").asStr with
  | none => exact h
  | some uuid =>
    apply h.setAccount
    cases hl : T.accounts.lookup uuid with
    | none => exact fun hstate ↦ by cases hstate
    | some a => exact h uuid a hl

/-- A registration leaves no account stuck if and only if the account it names has no text with a
NUL. -/
theorem settled_of_registerChange (hT : T.Settled) (h : RegisterChange e p T rc acts T') :
    T'.Settled ↔ ¬ Unusable T p := by
  cases h with
  | nameless hkey => simp [Unusable, hkey, hT]
  | unknown hkey hl => simp [Unusable, hkey, hl, hT]
  | @unusable id what a hkey hl hargs =>
    have hnul := (accAddArgs_error_iff _).mp ⟨_, hargs⟩
    rw [unusable_iff hkey hl, iff_false_right (not_not_intro hnul)]
    intro h'
    have stuck := h' id (released .registering a)
      (by simp [AccountTables.lookup_setAccount]) rfl
    cases stuck
  | refused hkey hl hargs hneg =>
    have usable := not_hasNul_of_accAddArgs hargs
    rw [unusable_iff hkey hl, iff_true_right usable]
    intro j b hb hstate
    rw [AccountTables.lookup_setAccount, AccountTables.unmapAcc_accounts,
      AccountTables.lookup_setAccount] at hb
    split_ifs at hb
    · cases hb
      cases hstate
    · exact hT j b hb hstate
  | started hkey hl hargs hpos =>
    have usable := not_hasNul_of_accAddArgs hargs
    rw [unusable_iff hkey hl, iff_true_right usable]
    intro j b hb hstate
    rw [AccountTables.mapAcc_accounts, AccountTables.lookup_setAccount,
      AccountTables.unmapAcc_accounts, AccountTables.lookup_setAccount] at hb
    split_ifs at hb
    · cases hb
      rfl
    · exact hT j b hb hstate

end Commands

section Runs

variable {i : Input} {s s' : Engine}

/-- An input that registers no account registers no unusable one. -/
theorem not_registersUnusable (h : ¬ Registers i s) : ¬ RegistersUnusable s i := by
  rintro ⟨command, hc, hname, -⟩
  apply h
  rw [Registers, hc, Option.map_some, hname]

/-- A registration callback reports an outcome. -/
theorem reportedAccount_ne {id : String} {state : RegistrationState}
    (h : reportedAccount i s = some (id, state)) : state ≠ .registering := by
  unfold reportedAccount at h
  split at h
  · obtain ⟨_, -, heq⟩ := Option.map_eq_some_iff.mp h
    cases heq
    unfold reportedRegState
    split_ifs <;> simp
  · cases h

/-- A registration callback is no command. -/
theorem not_registers_of_report {r : String × RegistrationState}
    (h : reportedAccount i s = some r) : ¬ Registers i s := by
  apply not_registers_of_none
  unfold reportedAccount at h
  split at h
  · next hop => rw [accountCommandOf, hop, commandOf, hop]
  · cases h

/-- The tables that a command finds have no stuck account if there was none. -/
theorem settled_foundTables (h : (accountTables s).Settled) : (foundTables i s).Settled := by
  unfold foundTables
  split
  · exact h.upsert _
  · exact h

/-- A change of the tables leaves no account stuck if and only if it comes from no registration
with an unusable text. -/
theorem settled_of_change {T T' : AccountTables} {acts : List ShimCall} (hT : T.Settled)
    (hfound : foundTables i s = T) (h : AccountChange i s T acts T') :
    T'.Settled ↔ ¬ RegistersUnusable s i := by
  cases h with
  | still hcmd => exact iff_of_true hT (not_registersUnusable hcmd)
  | upsert hcmd => exact iff_of_true (hT.upsert _) (not_registersUnusable hcmd)
  | @secure id old new hcmd hl hpj hstate =>
    refine iff_of_true (hT.setAccount ?_) (not_registersUnusable hcmd)
    unfold Settled
    rw [hpj, hstate]
    exact hT id old hl
  | report hreport hl =>
    refine iff_of_true (hT.setAccount ?_) (not_registersUnusable (not_registers_of_report hreport))
    intro hstate
    exact absurd hstate (reportedAccount_ne hreport)
  | register hcmd h =>
    rw [settled_of_registerChange hT h]
    simp [RegistersUnusable, hcmd, hfound]
  | @unregister p id a hcmd hkey hl =>
    have ha : Settled (released .unregistered a) := fun hstate ↦ by cases hstate
    exact iff_of_true ((hT.setAccount ha).unmapAcc _)
      (not_registersUnusable (not_registers hcmd (by decide)))
  | delete hcmd hkey hl =>
    exact iff_of_true ((hT.dropAccount _).unmapAcc _)
      (not_registersUnusable (not_registers hcmd (by decide)))
  | shutdown hop hinit =>
    refine iff_of_true hT (not_registersUnusable (not_registers_of_none ?_))
    rw [accountCommandOf, hop, commandOf, hop]

/-- A step leaves no account stuck if and only if it registers none with an unusable text. -/
theorem settled_step (h : (accountTables s).Settled) (hs : engineStep s i = some s') :
    (accountTables s').Settled ↔ ¬ RegistersUnusable s i := by
  rw [engineStep_eq hs]
  exact settled_of_change (settled_foundTables h) rfl (account_step i s)

/-- An `AccountRegister` ends well if and only if no text of the account contains a NUL, and in
every state of a run each account that is `Registering` has a PJSIP account if and only if the run
registers no account with such a text. -/
theorem no_stuck_registration_iff {is : List Input}
    (run : is.foldlM engineStep Engine.initial = some s) (e : Env) (t : Engine) (p : Json) :
    (EndedWell p ((cmdAccountRegister p).run e t).value
        (accountTables ((cmdAccountRegister p).run e t).state) ↔
      ¬ Unusable (accountTables t) p) ∧
    (Path engineStep (fun u i ↦ ¬ RegistersUnusable u i) Engine.initial is s ↔
      ∀ js u, js <+: is → js.foldlM engineStep Engine.initial = some u →
        ∀ id a, u.accounts.lookup id = some a →
          a.regState = .registering → a.pjsipAccId.isSome = true) := by
  have initial : (accountTables Engine.initial).Settled := fun _ _ h ↦ by cases h
  constructor
  · exact endedWell_of_registerChange (yields_cmdAccountRegister p)
  · exact Path.iff_always (I := fun u ↦ (accountTables u).Settled) initial
      (fun _ _ _ h hs ↦ settled_step h hs) run

/-- A registration, as an instance. -/
theorem no_stuck_registration_iff_signIn :
    ∃ s a, signIn.foldlM engineStep Engine.initial = some s ∧ s.accounts.lookup "a" = some a ∧
      a.regState = .registering ∧ a.pjsipAccId.isSome = true := by
  have h : (signIn.foldlM (fun u i ↦
      if ¬ RegistersUnusable u i then engineStep u i else none) Engine.initial).map (fun s ↦
        (s.accounts.lookup "a").map (·.regState)) = some (some .registering) := by decide
  obtain ⟨s, hs, haccount⟩ := Option.map_eq_some_iff.mp h
  obtain ⟨a, hl, hstate⟩ := Option.map_eq_some_iff.mp haccount
  have path : Path engineStep (fun u i ↦ ¬ RegistersUnusable u i) Engine.initial _ s :=
    Path.of_guarded hs
  have run := path.foldlM_eq
  have settled := (no_stuck_registration_iff run quietEnv s .null).2.mp path _ s
    List.prefix_rfl run "a" a hl hstate
  exact ⟨s, a, run, hl, hstate, settled⟩

/-- An account whose password contains a NUL gets stuck. -/
theorem nul_password_stuck :
    ∃ s, [⟨.init .null, quietEnv⟩,
        commandInput "AccountUpsert" [("uuid", .str "a"), ("password", .str "\x00")],
        commandInput "AccountRegister" [("uuid", .str "a")]].foldlM engineStep
          Engine.initial = some s ∧
      (s.accounts.lookup "a").map (fun a ↦ (a.regState, a.pjsipAccId)) =
        some (.registering, none) := by
  have h : ([⟨.init .null, quietEnv⟩,
      commandInput "AccountUpsert" [("uuid", .str "a"), ("password", .str "\x00")],
      commandInput "AccountRegister" [("uuid", .str "a")]].foldlM engineStep
        Engine.initial).map (fun s ↦
          (s.accounts.lookup "a").map fun a ↦ (a.regState, a.pjsipAccId)) =
      some (some (.registering, none)) := by decide
  exact Option.map_eq_some_iff.mp h

end Runs

end PacketDial.System
