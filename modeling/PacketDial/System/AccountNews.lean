import PacketDial.System.AccountMap
import PacketDial.System.LockDiscipline
import PacketDial.System.News

/-!
# What the account operations announce

`AccountUpsert`, `AccountRegister`, `AccountUnregister`, `AccountSetSecurity`,
`AccountDeleteProfile` and the registration callback, one after the other: the events on accounts
that each pushes, together with the tables it leaves.
-/

namespace PacketDial.System

open PacketDial.Core PacketDial.Lib

/-- The operations on accounts. -/
inductive AccountOp where
  | upsert (p : Json)
  | register (p : Json)
  | unregister (p : Json)
  | setSecurity (p : Json)
  | deleteProfile (p : Json)
  | onRegState (pjAccId expires statusCode : Int) (reason : CPtr)

/-- The code an operation runs. -/
def AccountOp.run : AccountOp → Eng Unit
  | .upsert p => discard <| cmdAccountUpsert p
  | .register p => discard <| cmdAccountRegister p
  | .unregister p => discard <| cmdAccountUnregister p
  | .setSecurity p => discard <| cmdAccountSetSecurity p
  | .deleteProfile p => discard <| cmdAccountDeleteProfile p
  | .onRegState pjAccId expires statusCode reason =>
    pjsipOnRegState pjAccId expires statusCode reason

/-- The events on accounts. -/
def accountEvents : List String := ["RegistrationStateChanged", "AccountProfileDeleted"]

/-- The view of a run that shows the events on accounts. -/
abbrev regView := announceView accountEvents

/-- An event with its payload. -/
abbrev News := String × Json

/-- The event that `push_reg_state` builds for a record. -/
def regNews (id : String) (account : Option Account) (state : RegistrationState) : News :=
  let (accountName, displayName, server, username) :=
    match account with
    | some a => (a.accountName, a.displayName, a.server, a.username)
    | none => ("", "", "", "")
  let reason := match state with
    | .failed r => r
    | _ => ""
  ("RegistrationStateChanged", .obj
    [("account_id", .str id), ("account_name", .str accountName),
      ("display_name", .str displayName), ("server", .str server), ("username", .str username),
      ("state", .str state.variantName), ("reason", .str reason)])

/-- The event that `AccountRegister` builds. -/
def registeringNews (id : String) (a : Account) : News :=
  ("RegistrationStateChanged", .obj
    [("account_id", .str id), ("account_name", .str a.accountName),
      ("display_name", .str a.displayName), ("state", .str "Registering"), ("reason", .str "")])

/-- The event of a deletion. -/
def deletedNews : News :=
  ("AccountProfileDeleted", .obj [("success", .bool true), ("error", .null)])

section Rules

variable {α β : Type} {e : Env} {s : Engine} {held : List Mutex}
  {Q : α → List News → CallTables × AccountTables → Prop}
  {R : β → List News → CallTables × AccountTables → Prop}

/-- A computation that announces nothing and leaves the tables drops out. -/
theorem yields_unannounced_bind {x : Eng α} (hx : Traced.Admits (Unannounced accountEvents held) x)
    {f : α → Eng β}
    (h : ∀ a s₁, accountTables s₁ = accountTables s → regView.Yields (f a) e s₁ R) :
    regView.Yields (x >>= f) e s R :=
  View.yields_still_bind hx fun a s₁ hs₁ ↦ h a s₁ (congrArg Prod.snd hs₁)

/-- A computation that announces nothing and leaves the tables. -/
theorem yields_unannounced {x : Eng α} (hx : Traced.Admits (Unannounced accountEvents held) x)
    (h : ∀ a, Q a [] (tableView.state s)) : regView.Yields x e s Q :=
  View.yields_still hx h

/-- Pushing a registration state announces it with the names of the record. -/
theorem yields_pushRegState_bind {id : String} {state : RegistrationState} {f : Unit → Eng β}
    (hf : ∀ s₁, accountTables s₁ = accountTables s →
      regView.Yields (f ()) e s₁ fun b acts c ↦
        R b (regNews id (s.accounts.lookup id) state :: acts) c) :
    regView.Yields (pushRegState id state >>= f) e s R := by
  have read : Traced.Admits (Unannounced accountEvents []) (withLock .accounts do
      return (← Traced.get).accounts.lookup id) :=
    tame_withLock (by decide) (tame_get.bind fun _ ↦ tame_pure _)
  unfold pushRegState
  rw [bind_assoc]
  refine View.yields_read_bind read (P := (· = s.accounts.lookup id)) rfl fun account s₁ h hs₁ ↦ ?_
  subst h
  exact yields_pushEvent_bind (by decide) (by decide) fun s₂ hs₂ ↦
    hf s₂ ((congrArg Prod.snd hs₂).trans (congrArg Prod.snd hs₁))

/-- Removing a PJSIP account announces nothing. -/
theorem announced_removePjsipAccount (pjId : Int) :
    regView.Yields (removePjsipAccount pjId) e s fun _ acts c ↦
      acts = [] ∧ c.2 = (accountTables s).unmapAcc (some pjId) := by
  unfold removePjsipAccount
  refine yields_unannounced_bind ((unannounced_shim _).map _) fun _ s₁ hs₁ ↦ ?_
  refine yields_announceLock ⟨rfl, ?_⟩
  rw [← hs₁]
  rfl

/-- Forgetting a PJSIP account announces nothing. -/
theorem announced_forgetPjsipAccount (pjId : Option Int) (text : Int → String) :
    regView.Yields (forgetPjsipAccount pjId text) e s fun _ acts c ↦
      acts = [] ∧ c.2 = (accountTables s).unmapAcc pjId := by
  unfold forgetPjsipAccount
  cases pjId with
  | none => exact View.yields_pure ⟨rfl, rfl⟩
  | some pjId =>
    refine View.Yields.bind (announced_removePjsipAccount pjId) ?_
    rintro _ acts s₁ ⟨rfl, hs₁⟩
    exact yields_unannounced (tame_logEngine canLog_nil _ _) fun _ ↦ ⟨rfl, hs₁⟩

/-- Taking the PJSIP id out of a record announces nothing. -/
theorem announced_takePjsipAccId {id : String} {a : Account} (state : RegistrationState)
    (hl : s.accounts.lookup id = some a) :
    regView.Yields (takePjsipAccId id state) e s fun pjId acts c ↦
      pjId = a.pjsipAccId ∧ acts = [] ∧
        c.2 = (accountTables s).setAccount id (released state a) := by
  unfold takePjsipAccId
  refine View.yields_get_bind ?_
  rw [hl]
  exact ⟨rfl, rfl, rfl⟩

/-- A record that is not there has no PJSIP id to take. -/
theorem announced_takePjsipAccId_none {id : String} (state : RegistrationState)
    (hl : s.accounts.lookup id = none) :
    regView.Yields (takePjsipAccId id state) e s fun pjId acts c ↦
      pjId = none ∧ acts = [] ∧ c.2 = accountTables s := by
  unfold takePjsipAccId
  refine View.yields_get_bind ?_
  rw [hl]
  exact ⟨rfl, rfl, rfl⟩

end Rules

/-- The record that a payload names by `uuid`. -/
def AccountTables.named (T : AccountTables) (p : Json) : Option Account :=
  (p.get "uuid").asStr.bind fun uuid ↦ T.accounts.lookup uuid

/-- The operation deletes a record, or it renames one. -/
def AccountTables.Conceals (T : AccountTables) : AccountOp → Prop
  | .deleteProfile p => (T.named p).isSome
  | .upsert p => ∃ old ∈ T.named p, ¬ ((upsertFields p old).accountName = old.accountName ∧
      (upsertFields p old).displayName = old.displayName)
  | _ => False

instance (T : AccountTables) : (op : AccountOp) → Decidable (T.Conceals op)
  | .deleteProfile p => inferInstanceAs (Decidable ((T.named p).isSome = true))
  | .upsert p => inferInstanceAs (Decidable (∃ old ∈ T.named p, ¬ (_ ∧ _)))
  | .register _ | .unregister _ | .setSecurity _ | .onRegState .. =>
    inferInstanceAs (Decidable False)

/-- The event tells the names and the registration state of a record. -/
def Tells (id : String) (a : Account) (news : News) : Prop :=
  news = regNews id (some a) a.regState ∨ news = registeringNews id a ∧ a.regState = .registering

/-- What an operation announces, and what it makes of the account tables `T`. -/
inductive AccountNews (T : AccountTables) (op : AccountOp) : List News → AccountTables → Prop where
  /-- Nothing happens. -/
  | still (hop : ¬ T.Conceals op) : AccountNews T op [] T
  /-- A record is changed without a word. -/
  | silent {id : String} {old new : Account} (hl : T.accounts.lookup id = some old)
      (hpj : new.pjsipAccId = old.pjsipAccId) (hstate : new.regState = old.regState)
      (hop : T.Conceals op ↔
        ¬ (new.accountName = old.accountName ∧ new.displayName = old.displayName)) :
      AccountNews T op [] (T.setAccount id new)
  /-- A record is made or changed, and what it says is told. -/
  | told {id : String} {new : Account} {news : News} {T' : AccountTables}
      (hop : ¬ T.Conceals op) (haccounts : T'.accounts = (T.setAccount id new).accounts)
      (hnews : Tells id new news)
      (hroutes : Sound T.route T.owner → Sound T'.route T'.owner) : AccountNews T op [news] T'
  /-- A record is deleted, and told about as if it was there. -/
  | deleted {id : String} {a : Account} (hop : T.Conceals op) (hl : T.accounts.lookup id = some a) :
      AccountNews T op [regNews id none .unregistered, deletedNews]
        ((T.dropAccount id).unmapAcc a.pjsipAccId)
  /-- A callback finds a route to no record. -/
  | lost {pjAccId : Int} {id : String} {state : RegistrationState} (hop : ¬ T.Conceals op)
      (hroute : T.route pjAccId = some id) (hl : T.accounts.lookup id = none) :
      AccountNews T op [regNews id none state] T

section Commands

variable {e : Env} {s : Engine}

/-- What `AccountUpsert` announces. -/
theorem announced_cmdAccountUpsert (p : Json) :
    regView.Yields (cmdAccountUpsert p) e s fun _ acts c ↦
      AccountNews (accountTables s) (.upsert p) acts c.2 := by
  unfold cmdAccountUpsert
  cases huuid : (p.get "uuid").asStr with
  | none =>
    refine View.yields_pure (.still ?_)
    simp [AccountTables.Conceals, AccountTables.named, huuid]
  | some uuid =>
    have hnamed : (accountTables s).named p = s.accounts.lookup uuid := by
      rw [AccountTables.named, huuid]
      rfl
    have write : regView.Yields (withLock .accounts do
        let existing := (← Traced.get).accounts.lookup uuid
        insertAccount uuid (upsertFields p (existing.getD (blankAccount uuid)))
        return existing.isSome) e s fun known acts c ↦
          known = (s.accounts.lookup uuid).isSome ∧ acts = [] ∧
            c.2 = (accountTables s).setAccount uuid
              (upsertFields p ((s.accounts.lookup uuid).getD (blankAccount uuid))) :=
      yields_announceLock ⟨rfl, rfl, rfl⟩
    refine View.Yields.bind write ?_
    rintro _ acts s₁ ⟨rfl, rfl, hs₁⟩
    dsimp only
    cases hl : s.accounts.lookup uuid with
    | none =>
      rw [hl] at hs₁
      have hfound : s₁.accounts.lookup uuid = some (upsertFields p (blankAccount uuid)) := by
        rw [lookup_of_tables hs₁, AccountTables.lookup_setAccount, if_pos rfl]
        rfl
      refine yields_pushRegState_bind fun s₂ hs₂ ↦ View.yields_pure ?_
      rw [show (regView.state s₂).2 = _ from hs₂.trans hs₁, hfound]
      refine .told ?_ rfl (Or.inl rfl) fun h ↦ ?_
      · simp [AccountTables.Conceals, hnamed, hl]
      · have howner : ((accountTables s).setAccount uuid
            (upsertFields p ((none : Option Account).getD (blankAccount uuid)))).owner =
              (accountTables s).owner := by
          apply AccountTables.owner_setAccount_of_eq
          rw [AccountTables.owner, show AList.lookup uuid (accountTables s).accounts = none from hl]
          rfl
        rw [howner]
        exact h
    | some old =>
      rw [hl] at hs₁
      refine View.yields_pure ?_
      rw [show (regView.state s₁).2 = _ from hs₁]
      refine .silent hl rfl rfl ?_
      simp [AccountTables.Conceals, hnamed, hl]

/-- What `AccountSetSecurity` announces. -/
theorem announced_cmdAccountSetSecurity (p : Json) :
    regView.Yields (cmdAccountSetSecurity p) e s fun _ acts c ↦
      AccountNews (accountTables s) (.setSecurity p) acts c.2 := by
  unfold cmdAccountSetSecurity
  cases (p.get "id").asStr with
  | none => exact View.yields_pure (.still id)
  | some id =>
    dsimp only
    refine View.Yields.bind (yields_announceLock (View.yields_get_bind (v := regView)
      (R := fun _ acts c ↦ acts = [] ∧ AccountNews (accountTables s) (.setSecurity p) [] c.2)
        ?_)) ?_
    · cases hl : s.accounts.lookup id with
      | none => exact ⟨rfl, .still fun h ↦ h⟩
      | some old => exact ⟨rfl, .silent hl rfl rfl ⟨False.elim, fun h ↦ h ⟨rfl, rfl⟩⟩⟩
    · rintro found acts s₁ ⟨rfl, hs₁⟩
      cases found with
      | none => exact View.yields_pure hs₁
      | some a =>
        refine yields_unannounced_bind (unannounced_pushEvent canLog_nil.2 (by decide) _)
          fun _ s₂ hs₂ ↦ View.yields_pure ?_
        rw [show (regView.state s₂).2 = _ from hs₂]
        exact hs₁

/-- Letting go of a PJSIP account keeps the routes sound. -/
theorem sound_released {T U : AccountTables} {id : String} {a : Account}
    (hl : T.accounts.lookup id = some a) (hroute : U.route = T.route)
    (howner : U.owner = Function.update T.owner id none) (h : Sound T.route T.owner) :
    Sound (U.unmapAcc a.pjsipAccId).route (U.unmapAcc a.pjsipAccId).owner := by
  have hclaim := owner_of_lookup hl
  have hroutes : ∀ k j, (U.unmapAcc a.pjsipAccId).route k = some j →
      T.route k = some j ∧ some k ≠ a.pjsipAccId := by
    intro k j hk
    cases hpj : a.pjsipAccId with
    | none =>
      rw [hpj, AccountTables.unmapAcc, hroute] at hk
      exact ⟨hk, by simp⟩
    | some pjId =>
      rw [hpj, AccountTables.route_unmapAcc, hroute] at hk
      by_cases hkp : k = pjId
      · rw [hkp, Function.update_self] at hk
        cases hk
      · rw [Function.update_of_ne hkp] at hk
        exact ⟨hk, fun h ↦ hkp (Option.some.inj h)⟩
  rw [AccountTables.owner_unmapAcc, howner]
  refine (h.mono fun k j hk ↦ (hroutes k j hk).1).release fun k hk ↦ ?_
  obtain ⟨hk, hne⟩ := hroutes k id hk
  have howns := h k id hk
  rw [hclaim] at howns
  exact hne howns.symm

/-- The record without its PJSIP id, whose route is gone. -/
theorem sound_setReleased {T : AccountTables} {id : String} {a : Account}
    (state : RegistrationState) (hl : T.accounts.lookup id = some a)
    (h : Sound T.route T.owner) :
    Sound ((T.setAccount id (released state a)).unmapAcc a.pjsipAccId).route
      ((T.setAccount id (released state a)).unmapAcc a.pjsipAccId).owner :=
  sound_released hl rfl (T.owner_setAccount id _) h

/-- A new PJSIP account that is routed to the record keeps the routes sound. -/
theorem sound_granted {T : AccountTables} {id : String} {a b : Account} {pjId : Int}
    {claimed : Option Int} (h : Sound ((T.setAccount id (released .registering a)).unmapAcc
      claimed).route ((T.setAccount id (released .registering a)).unmapAcc claimed).owner) :
    let U := (((T.setAccount id (released .registering a)).unmapAcc claimed).setAccount id
      { b with pjsipAccId := some pjId }).mapAcc pjId id
    Sound U.route U.owner := by
  intro U
  have hfree : ((T.setAccount id (released .registering a)).unmapAcc claimed).owner id = none := by
    rw [AccountTables.owner_unmapAcc, AccountTables.owner_setAccount, Function.update_self]
    rfl
  have hroute : U.route = Function.update _ pjId (some id) := AccountTables.route_mapAcc _ _ _
  have howner : U.owner = Function.update _ id (some pjId) := AccountTables.owner_setAccount _ _ _
  rw [hroute, howner]
  exact h.connect hfree pjId

/-- The transition to `Registering` is told. -/
theorem announced_beginRegistration {id : String} {a : Account} {T : AccountTables}
    (hT : accountTables s = T) (hl : T.accounts.lookup id = some a) :
    regView.Yields (beginRegistration id a) e s fun _ acts c ↦
      acts = [registeringNews id a] ∧
        c.2 = (T.setAccount id (released .registering a)).unmapAcc a.pjsipAccId := by
  unfold beginRegistration
  dsimp only
  split
  on_goal 1 =>
    refine yields_unannounced_bind (tame_logEngine canLog_nil _ _) fun _ s hs ↦ ?_
    replace hT := hs.trans hT
  all_goals
    have hls : s.accounts.lookup id = some a := (lookup_of_tables hT id).trans hl
    refine View.Yields.bind (yields_announceLock (announced_takePjsipAccId .registering hls)) ?_
    rintro pjId acts s₁ ⟨rfl, rfl, hs₁⟩
    rw [hT] at hs₁
    cases a.pjsipAccId with
    | none => exact yields_pushEvent (by decide) (by decide) ⟨rfl, hs₁⟩
    | some oldId =>
      refine View.Yields.bind (announced_removePjsipAccount oldId) ?_
      rintro _ acts s₂ ⟨rfl, hs₂⟩
      refine yields_pushEvent (by decide) (by decide) ⟨rfl, ?_⟩
      rw [← show accountTables s₁ = _ from hs₁]
      exact hs₂

/-- The success path of `AccountRegister` is silent. -/
theorem announced_registerStarted {id : String} {a : Account} (pjId : Int)
    (hl : s.accounts.lookup id = some a) :
    regView.Yields (registerStarted id pjId) e s fun _ acts c ↦ acts = [] ∧ c.2 =
      ((accountTables s).setAccount id { a with pjsipAccId := some pjId }).mapAcc pjId id := by
  unfold registerStarted
  refine View.Yields.bind (yields_announceLock (View.yields_get_bind (v := regView)
    (R := fun _ acts c ↦ acts = [] ∧
      c.2 = (accountTables s).setAccount id { a with pjsipAccId := some pjId }) ?_)) ?_
  · rw [hl]
    exact ⟨rfl, rfl⟩
  · rintro _ acts s₁ ⟨rfl, hs₁⟩
    have route : regView.Yields (withLock .pjsipAccMap (insertPjsipAcc pjId id)) e s₁
        fun _ acts c ↦ acts = [] ∧ c.2 = (accountTables s₁).mapAcc pjId id :=
      yields_announceLock ⟨rfl, rfl⟩
    refine View.Yields.bind route ?_
    rintro _ acts s₂ ⟨rfl, hs₂⟩
    refine yields_unannounced_bind (tame_logEngine canLog_nil _ _) fun _ s₃ hs₃ ↦ ?_
    refine View.yields_pure ⟨rfl, ?_⟩
    rw [← show accountTables s₁ = _ from hs₁, ← show accountTables s₂ = _ from hs₂]
    exact hs₃

/-- What an `AccountRegister` that PJSIP does not refuse announces. -/
theorem announced_cmdAccountRegister {p : Json} (hfails : registrationFails p e s = false) :
    regView.Yields (cmdAccountRegister p) e s fun _ acts c ↦
      AccountNews (accountTables s) (.register p) acts c.2 := by
  unfold registrationFails at hfails
  unfold cmdAccountRegister
  cases hkey : accountKey p with
  | none => exact View.yields_pure (.still fun h ↦ h)
  | some id =>
    rw [hkey, Option.bind_some] at hfails
    have lookup : Traced.Admits (Unannounced accountEvents []) (lookupForRegister id) :=
      tame_lookupForRegister id
    dsimp only
    refine View.yields_read_bind lookup (P := (· = s.accounts.lookup id))
      (lookupForRegister_value id) fun found s₁ hfound hs₁ ↦ ?_
    subst hfound
    have htables : accountTables s₁ = accountTables s := congrArg Prod.snd hs₁
    cases hl : s.accounts.lookup id with
    | none =>
      refine View.yields_pure ?_
      rw [show (regView.state s₁).2 = _ from htables]
      exact .still fun h ↦ h
    | some a =>
      rw [hl, Option.bind_some] at hfails
      have hl' : (accountTables s).accounts.lookup id = some a := hl
      dsimp only
      refine View.Yields.bind (announced_beginRegistration htables hl') ?_
      rintro _ acts s₂ ⟨rfl, hs₂⟩
      have hsound := sound_setReleased .registering hl'
      cases hargs : accAddArgs a with
      | error what =>
        refine yields_unannounced_bind (tame_logEngine canLog_nil _ _) fun _ s₃ hs₃ ↦ ?_
        refine View.yields_pure ?_
        rw [show (regView.state s₃).2 = _ from hs₃.trans hs₂]
        have htold : Tells id (released .registering a) (registeringNews id a) :=
          Or.inr ⟨rfl, rfl⟩
        exact .told (fun h ↦ h) (AccountTables.unmapAcc_accounts _ _) htold hsound
      | ok args =>
        rw [hargs] at hfails
        dsimp only
        refine View.Yields.bind (x := shim (.pdAccAdd args))
          (Q := fun rc acts c ↦ rc = e.rc (.pdAccAdd args) ∧ acts = [] ∧
            c.2 = accountTables s₂) ⟨rfl, rfl, rfl⟩ ?_
        rintro _ acts s₃ ⟨rfl, rfl, hs₃⟩
        have hpos : ¬ e.rc (.pdAccAdd args) < 0 := by
          simpa [Except.toOption] using hfails
        rw [if_neg hpos]
        have hfound : s₃.accounts.lookup id = some (released .registering a) := by
          rw [lookup_of_tables (hs₃.trans hs₂), AccountTables.unmapAcc_accounts,
            AccountTables.lookup_setAccount, if_pos rfl]
        refine (announced_registerStarted _ hfound).imp ?_
        rintro _ acts c ⟨rfl, hc⟩
        rw [show accountTables s₃ = _ from hs₃.trans hs₂] at hc
        have htold : Tells id (granted (e.rc (.pdAccAdd args)) a) (registeringNews id a) :=
          Or.inr ⟨rfl, rfl⟩
        rw [hc]
        refine .told (fun h ↦ h) ?_ htold fun h ↦ sound_granted (hsound h)
        rw [AccountTables.mapAcc_accounts]
        unfold AccountTables.setAccount
        rw [AccountTables.unmapAcc_accounts, AList.insert_insert]
        rfl

/-- What `AccountUnregister` announces. -/
theorem announced_cmdAccountUnregister (p : Json) :
    regView.Yields (cmdAccountUnregister p) e s fun _ acts c ↦
      AccountNews (accountTables s) (.unregister p) acts c.2 := by
  unfold cmdAccountUnregister
  cases accountKey p with
  | none => exact View.yields_pure (.still fun h ↦ h)
  | some id =>
    dsimp only
    cases hl : s.accounts.lookup id with
    | none =>
      have take : regView.Yields (withLock .accounts do
          let known := ((← Traced.get).accounts.lookup id).isSome
          return (known, ← takePjsipAccId id .unregistered)) e s fun found acts c ↦
            found = (false, none) ∧ acts = [] ∧ c.2 = accountTables s := by
        refine yields_announceLock (View.yields_get_bind ?_)
        refine View.Yields.bind (announced_takePjsipAccId_none .unregistered hl) ?_
        rintro _ acts s₁ ⟨rfl, rfl, hs₁⟩
        exact View.yields_pure ⟨by rw [hl]; rfl, rfl, hs₁⟩
      refine View.Yields.bind take ?_
      rintro _ acts s₁ ⟨rfl, rfl, hs₁⟩
      refine View.yields_pure ?_
      rw [hs₁]
      exact .still fun h ↦ h
    | some a =>
      have take : regView.Yields (withLock .accounts do
          let known := ((← Traced.get).accounts.lookup id).isSome
          return (known, ← takePjsipAccId id .unregistered)) e s fun found acts c ↦
            found = (true, a.pjsipAccId) ∧ acts = [] ∧
              c.2 = (accountTables s).setAccount id (released .unregistered a) := by
        refine yields_announceLock (View.yields_get_bind ?_)
        refine View.Yields.bind (announced_takePjsipAccId .unregistered hl) ?_
        rintro _ acts s₁ ⟨rfl, rfl, hs₁⟩
        exact View.yields_pure ⟨by rw [hl]; rfl, rfl, hs₁⟩
      refine View.Yields.bind take ?_
      rintro _ acts s₁ ⟨rfl, rfl, hs₁⟩
      dsimp only
      refine View.Yields.bind (announced_forgetPjsipAccount _ _) ?_
      rintro _ acts s₂ ⟨rfl, hs₂⟩
      rw [show accountTables s₁ = _ from hs₁] at hs₂
      have hfound : s₂.accounts.lookup id = some (released .unregistered a) := by
        rw [lookup_of_tables hs₂, AccountTables.unmapAcc_accounts,
          AccountTables.lookup_setAccount, if_pos rfl]
      refine yields_pushRegState_bind fun s₃ hs₃ ↦ View.yields_pure ?_
      rw [show (regView.state s₃).2 = _ from hs₃.trans hs₂, hfound]
      exact .told (fun h ↦ h) (AccountTables.unmapAcc_accounts _ _) (Or.inl rfl)
        (sound_setReleased .unregistered hl)

/-- Deleting the shim's profile announces nothing. -/
theorem unannounced_shimDeleteProfile (uuid : String) :
    Traced.Admits (Unannounced accountEvents []) (shimDeleteProfile uuid) := by
  unfold shimDeleteProfile
  split
  · exact (unannounced_shim _).map _
  · exact tame_pure _

/-- What `AccountDeleteProfile` announces. -/
theorem announced_cmdAccountDeleteProfile (p : Json) :
    regView.Yields (cmdAccountDeleteProfile p) e s fun _ acts c ↦
      AccountNews (accountTables s) (.deleteProfile p) acts c.2 := by
  unfold cmdAccountDeleteProfile
  cases hkey : (p.get "uuid").asStr with
  | none =>
    refine View.yields_pure (.still ?_)
    simp [AccountTables.Conceals, AccountTables.named, hkey]
  | some id =>
    have hnamed : (accountTables s).named p = s.accounts.lookup id := by
      rw [AccountTables.named, hkey]
      rfl
    have drop : regView.Yields (withLock .accounts do
        let found := (← Traced.get).accounts.lookup id
        Traced.modify fun s ↦ { s with accounts := s.accounts.erase id }
        return found) e s fun found acts c ↦
          found = s.accounts.lookup id ∧ acts = [] ∧ c.2 = (accountTables s).dropAccount id :=
      yields_announceLock ⟨rfl, rfl, rfl⟩
    dsimp only
    refine View.Yields.bind drop ?_
    rintro _ acts s₁ ⟨rfl, rfl, hs₁⟩
    cases hl : s.accounts.lookup id with
    | none =>
      refine View.yields_pure ?_
      rw [hs₁, dropAccount_of_missing (T := accountTables s) hl]
      refine .still ?_
      simp [AccountTables.Conceals, hnamed, hl]
    | some a =>
      dsimp only
      refine View.Yields.bind (announced_forgetPjsipAccount _ _) ?_
      rintro _ acts s₂ ⟨rfl, hs₂⟩
      rw [show accountTables s₁ = _ from hs₁] at hs₂
      refine yields_unannounced_bind (unannounced_shimDeleteProfile id) fun _ s₃ hs₃ ↦ ?_
      refine yields_unannounced_bind (tame_logEngine canLog_nil _ _) fun _ s₄ hs₄ ↦ ?_
      have htables := hs₄.trans (hs₃.trans hs₂)
      have hgone : s₄.accounts.lookup id = none := by
        rw [lookup_of_tables htables, AccountTables.unmapAcc_accounts,
          AccountTables.lookup_dropAccount, if_pos rfl]
      refine yields_pushRegState_bind fun s₅ hs₅ ↦ ?_
      refine yields_pushEvent_bind (by decide) (by decide) fun s₆ hs₆ ↦ View.yields_pure ?_
      have hs₆ : accountTables s₆ = accountTables s₅ := congrArg Prod.snd hs₆
      rw [show (regView.state s₆).2 = _ from hs₆.trans (hs₅.trans htables), hgone]
      refine .deleted ?_ hl
      simp [AccountTables.Conceals, hnamed, hl]

/-- What a registration callback announces. -/
theorem announced_pjsipOnRegState (pjAccId expires statusCode : Int) (reason : CPtr) :
    regView.Yields (pjsipOnRegState pjAccId expires statusCode reason) e s fun _ acts c ↦
      AccountNews (accountTables s) (.onRegState pjAccId expires statusCode reason) acts c.2 := by
  have text : Traced.Admits (Unannounced accountEvents [])
      (reasonText "pjsip_on_reg_state" reason) := tame_reasonText (by decide) _ _
  have route (s₁ : Engine) (hs₁ : accountTables s₁ = accountTables s) :
      regView.Yields (withLock .pjsipAccMap do
        return (← Traced.get).pjsipAccMap.lookup pjAccId) e s₁ fun found acts c ↦
          found = (accountTables s).route pjAccId ∧ acts = [] ∧ c.2 = accountTables s := by
    rw [← hs₁]
    exact yields_announceLock ⟨rfl, rfl, rfl⟩
  unfold pjsipOnRegState
  refine yields_unannounced_bind text fun reasonStr s₁ hs₁ ↦ ?_
  refine View.Yields.bind (route s₁ hs₁) ?_
  rintro found acts s₂ ⟨hfound, rfl, hs₂⟩
  cases found with
  | none =>
    refine yields_unannounced (tame_logEngine canLog_nil _ _) fun _ ↦ ?_
    rw [show (tableView.state s₂).2 = _ from hs₂]
    exact .still fun h ↦ h
  | some id =>
    have hroute : (accountTables s).route pjAccId = some id := hfound.symm
    generalize reportedRegState expires statusCode reasonStr = state
    dsimp only
    cases hl : s.accounts.lookup id with
    | none =>
      have write : regView.Yields (withLock .accounts (setRegState id state)) e s₂
          fun _ acts c ↦ acts = [] ∧ c.2 = accountTables s := by
        refine yields_announceLock (View.yields_get_bind ?_)
        rw [(lookup_of_tables hs₂ id).trans hl]
        exact View.yields_pure ⟨rfl, hs₂⟩
      refine View.Yields.bind write ?_
      rintro _ acts s₃ ⟨rfl, hs₃⟩
      refine yields_pushRegState_bind fun s₄ hs₄ ↦ ?_
      refine yields_unannounced (tame_logEngine canLog_nil _ _) fun _ ↦ ?_
      rw [show (tableView.state s₄).2 = _ from hs₄.trans hs₃,
        (lookup_of_tables hs₃ id).trans hl]
      exact .lost (fun h ↦ h) hroute hl
    | some a =>
      have write : regView.Yields (withLock .accounts (setRegState id state)) e s₂
          fun _ acts c ↦ acts = [] ∧
            c.2 = (accountTables s).setAccount id { a with regState := state } := by
        refine yields_announceLock (View.yields_get_bind ?_)
        rw [(lookup_of_tables hs₂ id).trans hl, ← show accountTables s₂ = _ from hs₂]
        exact ⟨rfl, rfl⟩
      refine View.Yields.bind write ?_
      rintro _ acts s₃ ⟨rfl, hs₃⟩
      have hnew : s₃.accounts.lookup id = some { a with regState := state } := by
        rw [lookup_of_tables hs₃, AccountTables.lookup_setAccount, if_pos rfl]
      refine yields_pushRegState_bind fun s₄ hs₄ ↦ ?_
      refine yields_unannounced (tame_logEngine canLog_nil _ _) fun _ ↦ ?_
      rw [show (tableView.state s₄).2 = _ from hs₄.trans hs₃, hnew]
      refine .told (fun h ↦ h) rfl (Or.inl rfl) fun h ↦ ?_
      have howner : ((accountTables s).setAccount id { a with regState := state }).owner =
          (accountTables s).owner :=
        AccountTables.owner_setAccount_of_eq (owner_of_lookup (T := accountTables s) hl).symm
      rw [howner]
      exact h

/-- The run of an operation. -/
def AccountOp.outcome (op : AccountOp) (e : Env) (s : Engine) : Outcome Engine Action Unit :=
  op.run.run e s

/-- What a run of an operation announces. -/
def AccountOp.news (op : AccountOp) (e : Env) (s : Engine) : List News :=
  regView.trace (op.outcome e s).trace

/-- What an operation that comes to an end announces. -/
theorem accountNews_of_completes {op : AccountOp} (h : completes (op.outcome e s).trace = true) :
    AccountNews (accountTables s) op (op.news e s) (accountTables (op.outcome e s).state) := by
  have done {x : Eng EngineErrorCode} {Q : List News → CallTables × AccountTables → Prop}
      (hx : regView.Yields x e s fun _ acts c ↦ Q acts c) :
      regView.Yields (discard x) e s fun _ acts c ↦ Q acts c :=
    View.yields_discard hx
  cases op with
  | upsert p => exact done (announced_cmdAccountUpsert p)
  | unregister p => exact done (announced_cmdAccountUnregister p)
  | setSecurity p => exact done (announced_cmdAccountSetSecurity p)
  | deleteProfile p => exact done (announced_cmdAccountDeleteProfile p)
  | onRegState pjAccId expires statusCode reason =>
    exact announced_pjsipOnRegState pjAccId expires statusCode reason
  | register p =>
    refine done (announced_cmdAccountRegister ?_)
    have hlocks : heldAfter [] (lockActs ((cmdAccountRegister p).run e s).trace) = _ :=
      locksAfter_cmdAccountRegister p
    cases hfails : registrationFails p e s with
    | false => rfl
    | true =>
      rw [if_pos hfails] at hlocks
      have htrace : ((AccountOp.register p).outcome e s).trace =
          ((cmdAccountRegister p).run e s).trace :=
        congrArg Outcome.trace (Traced.run_discard _ e s)
      unfold completes at h
      rw [htrace, hlocks] at h
      cases h

end Commands

end PacketDial.System
