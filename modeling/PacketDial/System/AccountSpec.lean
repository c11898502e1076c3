import PacketDial.System.MildCommands

/-!
# What the account commands change

`AccountUpsert`, `AccountRegister`, `AccountUnregister`, `AccountSetSecurity` and
`AccountDeleteProfile` seen through the account view: the PJSIP accounts they add and remove, and
the tables they leave.
-/

namespace PacketDial.System

open PacketDial.Core PacketDial.Lib

namespace AccountTables

/-- Write one record. -/
def setAccount (T : AccountTables) (id : String) (a : Account) : AccountTables :=
  { T with accounts := T.accounts.insert id a }

/-- Delete one record. -/
def dropAccount (T : AccountTables) (id : String) : AccountTables :=
  { T with accounts := T.accounts.erase id }

/-- Route a PJSIP id to an account. -/
def mapAcc (T : AccountTables) (pjId : Int) (id : String) : AccountTables :=
  { T with accMap := T.accMap.insert pjId id }

/-- Route the PJSIP id of an account, if it has one, nowhere. -/
def unmapAcc (T : AccountTables) (pjId : Option Int) : AccountTables :=
  match pjId with
  | some pjId => { T with accMap := T.accMap.erase pjId }
  | none => T

variable (T : AccountTables)

/-- The records after one was written. -/
theorem lookup_setAccount (id j : String) (a : Account) :
    (T.setAccount id a).accounts.lookup j = if j = id then some a else T.accounts.lookup j := by
  by_cases h : j = id
  · rw [if_pos h, h, setAccount, AList.lookup_insert]
  · rw [if_neg h, setAccount, AList.lookup_insert_ne h]

/-- The records after one was deleted. -/
theorem lookup_dropAccount (id j : String) :
    (T.dropAccount id).accounts.lookup j = if j = id then none else T.accounts.lookup j := by
  by_cases h : j = id
  · rw [if_pos h, h, dropAccount, AList.lookup_erase]
  · rw [if_neg h, dropAccount, AList.lookup_erase_ne h]

@[simp] theorem mapAcc_accounts (pjId : Int) (id : String) :
    (T.mapAcc pjId id).accounts = T.accounts := rfl

@[simp] theorem unmapAcc_accounts (pjId : Option Int) :
    (T.unmapAcc pjId).accounts = T.accounts := by
  cases pjId <;> rfl

end AccountTables

/-- The tables after an upsert. -/
def upsertTables (p : Json) (T : AccountTables) : AccountTables :=
  match (p.get "uuid").asStr with
  | none => T
  | some uuid =>
    T.setAccount uuid (upsertFields p ((T.accounts.lookup uuid).getD (blankAccount uuid)))

/-- The account without its PJSIP id. -/
def released (state : RegistrationState) (a : Account) : Account :=
  { a with pjsipAccId := none, regState := state }

/-- The account with a PJSIP id. -/
def granted (pjId : Int) (a : Account) : Account :=
  { a with pjsipAccId := some pjId, regState := .registering }

/-- The operation that removes the PJSIP account of an account, if it has one. -/
def removeOps (pjId : Option Int) : List ShimCall := (pjId.map .pdAccRemove).toList

/-- The state of an account that PJSIP refused. -/
def addFailed : RegistrationState := .failed "pd_acc_add failed"

/-- What `AccountRegister` can return and do to the account tables `T`. -/
inductive RegisterChange (e : Env) (p : Json) (T : AccountTables) :
    EngineErrorCode → List ShimCall → AccountTables → Prop where
  | nameless (hkey : accountKey p = none) : RegisterChange e p T .invalidJson [] T
  | unknown {id : String} (hkey : accountKey p = some id) (hl : T.accounts.lookup id = none) :
      RegisterChange e p T .notFound [] T
  | unusable {id what : String} {a : Account} (hkey : accountKey p = some id)
      (hl : T.accounts.lookup id = some a) (hargs : accAddArgs a = .error what) :
      RegisterChange e p T .internalError (removeOps a.pjsipAccId)
        ((T.setAccount id (released .registering a)).unmapAcc a.pjsipAccId)
  | refused {id : String} {a : Account} {args : AccAddArgs} (hkey : accountKey p = some id)
      (hl : T.accounts.lookup id = some a) (hargs : accAddArgs a = .ok args)
      (hneg : e.rc (.pdAccAdd args) < 0) :
      RegisterChange e p T .internalError (removeOps a.pjsipAccId ++ [.pdAccAdd args])
        (((T.setAccount id (released .registering a)).unmapAcc a.pjsipAccId).setAccount id
          (released addFailed a))
  | started {id : String} {a : Account} {args : AccAddArgs} (hkey : accountKey p = some id)
      (hl : T.accounts.lookup id = some a) (hargs : accAddArgs a = .ok args)
      (hpos : 0 ≤ e.rc (.pdAccAdd args)) :
      RegisterChange e p T .ok (removeOps a.pjsipAccId ++ [.pdAccAdd args])
        ((((T.setAccount id (released .registering a)).unmapAcc a.pjsipAccId).setAccount id
          (granted (e.rc (.pdAccAdd args)) a)).mapAcc (e.rc (.pdAccAdd args)) id)

section Rules

variable {α β : Type} {e : Env} {s : Engine} {Q : α → List ShimCall → AccountTables → Prop}
  {R : β → List ShimCall → AccountTables → Prop}

/-- A steady computation that comes first drops out. -/
theorem yields_steady_bind {held : List Mutex} {x : Eng α} (hx : Traced.Admits (Steady held) x)
    {f : α → Eng β}
    (h : ∀ a s₁, accountTables s₁ = accountTables s → accountView.Yields (f a) e s₁ R) :
    accountView.Yields (x >>= f) e s R :=
  View.yields_still_bind hx h

/-- A steady computation shows the tables it started from. -/
theorem yields_steady {held : List Mutex} {x : Eng α} (hx : Traced.Admits (Steady held) x)
    (h : ∀ a, Q a [] (accountTables s)) : accountView.Yields x e s Q :=
  View.yields_still hx h

/-- A critical section shows what its body shows. -/
theorem accounts_withLock {m : Mutex} {x : Eng α} (h : accountView.Yields x e s Q) :
    accountView.Yields (withLock m x) e s Q := by
  have ht : accountView.trace ((withLock m x).run e s).trace =
      accountView.trace (x.run e s).trace := by
    simp [run_withLock, View.trace, accountView, accountAct, List.filterMap_cons]
  unfold View.Yields at h ⊢
  rw [ht, run_withLock]
  exact h

private theorem trace_accountOp {call : ShimCall} (hc : isAccountOp call = true) :
    accountView.trace ((shim call).run e s).trace = [call] := by
  simp [shim, View.trace, accountView, accountAct, hc]

/-- Sequencing after an operation on an account. -/
theorem accounts_shim_bind {call : ShimCall} (hc : isAccountOp call = true) {f : Int → Eng β}
    (h : accountView.Yields (f (e.rc call)) e s fun b acts T ↦ R b (call :: acts) T) :
    accountView.Yields (shim call >>= f) e s R :=
  View.yields_bind rfl rfl (trace_accountOp hc) h

/-- Sequencing after an operation on an account whose return value is ignored. -/
theorem accounts_discard_shim_bind {call : ShimCall} (hc : isAccountOp call = true)
    {f : Unit → Eng β}
    (h : accountView.Yields (f ()) e s fun b acts T ↦ R b (call :: acts) T) :
    accountView.Yields (discard (shim call) >>= f) e s R := by
  have ht : accountView.trace ((discard (shim call)).run e s).trace = [call] := by
    rw [Traced.run_discard]
    exact trace_accountOp hc
  exact View.yields_bind rfl rfl ht h

/-- Removing a PJSIP account. -/
theorem yields_removePjsipAccount (pjId : Int) :
    accountView.Yields (removePjsipAccount pjId) e s fun _ acts T ↦
      acts = removeOps (some pjId) ∧ T = (accountTables s).unmapAcc (some pjId) := by
  unfold removePjsipAccount
  refine accounts_discard_shim_bind rfl (accounts_withLock ?_)
  exact ⟨rfl, rfl⟩

/-- Forgetting the PJSIP account that an account had. -/
theorem yields_forgetPjsipAccount (pjId : Option Int) (text : Int → String) :
    accountView.Yields (forgetPjsipAccount pjId text) e s fun _ acts T ↦
      acts = removeOps pjId ∧ T = (accountTables s).unmapAcc pjId := by
  unfold forgetPjsipAccount
  cases pjId with
  | none => exact View.yields_pure ⟨rfl, rfl⟩
  | some pjId =>
    refine View.Yields.bind (yields_removePjsipAccount pjId) ?_
    rintro _ acts s₁ ⟨rfl, hT⟩
    refine yields_steady (tame_logEngine canLog_nil _ _) fun _ ↦ ⟨by simp, hT⟩

/-- Setting the state of a record. -/
theorem yields_setRegState {id : String} {a : Account} (state : RegistrationState)
    (hl : s.accounts.lookup id = some a) :
    accountView.Yields (setRegState id state) e s fun _ acts T ↦
      acts = [] ∧ T = (accountTables s).setAccount id { a with regState := state } := by
  unfold setRegState
  refine View.yields_get_bind ?_
  rw [hl]
  exact ⟨rfl, rfl⟩

/-- Taking the PJSIP id out of a record. -/
theorem yields_takePjsipAccId {id : String} {a : Account} (state : RegistrationState)
    (hl : s.accounts.lookup id = some a) :
    accountView.Yields (takePjsipAccId id state) e s fun pjId acts T ↦
      pjId = a.pjsipAccId ∧ acts = [] ∧ T = (accountTables s).setAccount id (released state a) := by
  unfold takePjsipAccId
  refine View.yields_get_bind ?_
  rw [hl]
  exact ⟨rfl, rfl, rfl⟩

/-- A record that is not there has no PJSIP id to take. -/
theorem yields_takePjsipAccId_none {id : String} (state : RegistrationState)
    (hl : s.accounts.lookup id = none) :
    accountView.Yields (takePjsipAccId id state) e s fun pjId acts T ↦
      pjId = none ∧ acts = [] ∧ T = accountTables s := by
  unfold takePjsipAccId
  refine View.yields_get_bind ?_
  rw [hl]
  exact ⟨rfl, rfl, rfl⟩

end Rules

section Commands

variable {e : Env} {s : Engine}

/-- The record of a table is that of the engine. -/
theorem lookup_of_tables {s₁ : Engine} {T : AccountTables} (h : accountTables s₁ = T)
    (id : String) : s₁.accounts.lookup id = T.accounts.lookup id := by
  rw [← h]
  rfl

/-- The account that `AccountRegister` reads. -/
theorem lookupForRegister_value (id : String) :
    ((lookupForRegister id).run e s).value = s.accounts.lookup id := by
  unfold lookupForRegister withLock
  rw [Traced.run_bind]
  cases h : s.accounts.lookup id <;> simp [h]

/-- What `AccountUpsert` does. -/
theorem yields_cmdAccountUpsert (p : Json) :
    accountView.Yields (cmdAccountUpsert p) e s fun rc acts T ↦
      rc = (if (p.get "uuid").asStr.isSome then .ok else .invalidJson) ∧ acts = [] ∧
        T = upsertTables p (accountTables s) := by
  unfold cmdAccountUpsert upsertTables
  cases (p.get "uuid").asStr with
  | none => exact View.yields_pure ⟨rfl, rfl, rfl⟩
  | some uuid =>
    have write : accountView.Yields (withLock .accounts do
        let existing := (← Traced.get).accounts.lookup uuid
        insertAccount uuid (upsertFields p (existing.getD (blankAccount uuid)))
        return existing.isSome) e s fun _ acts T ↦ acts = [] ∧ T = (accountTables s).setAccount uuid
            (upsertFields p ((s.accounts.lookup uuid).getD (blankAccount uuid))) :=
      accounts_withLock ⟨rfl, rfl⟩
    refine View.Yields.bind write ?_
    rintro known acts s₁ ⟨rfl, hT⟩
    dsimp only
    split
    · refine yields_steady_bind (tame_pushRegState canLog_nil.2 (by decide) _ _) fun _ s₂ hs₂ ↦ ?_
      exact View.yields_pure ⟨rfl, rfl, hs₂.trans hT⟩
    · exact View.yields_pure ⟨rfl, rfl, hT⟩

/-- The transition to `Registering` lets go of the PJSIP account. -/
theorem yields_beginRegistration {id : String} {a : Account} {T : AccountTables}
    (hT : accountTables s = T) (hl : T.accounts.lookup id = some a) :
    accountView.Yields (beginRegistration id a) e s fun _ acts T' ↦
      acts = removeOps a.pjsipAccId ∧
        T' = (T.setAccount id (released .registering a)).unmapAcc a.pjsipAccId := by
  unfold beginRegistration
  dsimp only
  split
  on_goal 1 =>
    refine yields_steady_bind (tame_logEngine canLog_nil _ _) fun _ s hs ↦ ?_
    replace hT := hs.trans hT
  all_goals
    have hls : s.accounts.lookup id = some a := (lookup_of_tables hT id).trans hl
    refine View.Yields.bind (accounts_withLock (yields_takePjsipAccId .registering hls)) ?_
    rintro pjId acts s₁ ⟨rfl, rfl, hs₁⟩
    rw [hT] at hs₁
    cases a.pjsipAccId with
    | none =>
      exact yields_steady (tame_pushEvent canLog_nil.2 (by decide) _) fun _ ↦ ⟨rfl, hs₁⟩
    | some oldId =>
      refine View.Yields.bind (yields_removePjsipAccount oldId) ?_
      rintro _ acts s₂ ⟨rfl, hs₂⟩
      refine yields_steady (tame_pushEvent canLog_nil.2 (by decide) _) fun _ ↦ ⟨by simp, ?_⟩
      rw [← show accountTables s₁ = _ from hs₁]
      exact hs₂

/-- The success path of `AccountRegister` stores the PJSIP id and routes it. -/
theorem yields_registerStarted {id : String} {a : Account} (pjId : Int)
    (hl : s.accounts.lookup id = some a) :
    accountView.Yields (registerStarted id pjId) e s fun rc acts T ↦
      rc = .ok ∧ acts = [] ∧
        T = ((accountTables s).setAccount id { a with pjsipAccId := some pjId }).mapAcc pjId id :=
      by
  unfold registerStarted
  refine View.Yields.bind (accounts_withLock (View.yields_get_bind (v := accountView)
    (R := fun _ acts T ↦ acts = [] ∧
      T = (accountTables s).setAccount id { a with pjsipAccId := some pjId }) ?_)) ?_
  · rw [hl]
    exact ⟨rfl, rfl⟩
  · rintro _ acts s₁ ⟨rfl, hs₁⟩
    have route : accountView.Yields (withLock .pjsipAccMap (insertPjsipAcc pjId id)) e s₁
        fun _ acts T ↦ acts = [] ∧ T = (accountTables s₁).mapAcc pjId id :=
      accounts_withLock ⟨rfl, rfl⟩
    refine View.Yields.bind route ?_
    rintro _ acts s₂ ⟨rfl, hs₂⟩
    refine yields_steady_bind (tame_logEngine canLog_nil _ _) fun _ s₃ hs₃ ↦ ?_
    refine View.yields_pure ⟨rfl, rfl, ?_⟩
    rw [← show accountTables s₁ = _ from hs₁, ← show accountTables s₂ = _ from hs₂]
    exact hs₃

/-- The failure path of `AccountRegister` marks the record. -/
theorem yields_registerFailed {id : String} {a : Account} (hl : s.accounts.lookup id = some a) :
    accountView.Yields (registerFailed id) e s fun rc acts T ↦
      rc = .internalError ∧ acts = [] ∧
        T = (accountTables s).setAccount id { a with regState := addFailed } := by
  have push : Traced.Admits (Steady []) (pushRegState id addFailed) :=
    tame_pushRegState canLog_nil.2 (by decide) id addFailed
  have failure : accountView.Yields (withLock .accounts do
      setRegState id addFailed
      pushRegState id addFailed
      logEngine .error s!"Account '{id}': pd_acc_add returned error") e s fun _ acts T ↦
        acts = [] ∧ T = (accountTables s).setAccount id { a with regState := addFailed } := by
    refine accounts_withLock (View.Yields.bind (yields_setRegState addFailed hl) ?_)
    rintro _ acts s₁ ⟨rfl, hs₁⟩
    refine yields_steady_bind push fun _ s₂ hs₂ ↦ ?_
    exact yields_steady (tame_logEngine canLog_nil _ _) fun _ ↦ ⟨rfl, hs₂.trans hs₁⟩
  unfold registerFailed
  refine View.Yields.bind failure ?_
  rintro _ acts s₁ ⟨rfl, hs₁⟩
  exact View.yields_pure ⟨rfl, rfl, hs₁⟩

/-- What `AccountRegister` does. -/
theorem yields_cmdAccountRegister (p : Json) :
    accountView.Yields (cmdAccountRegister p) e s fun rc acts T ↦
      RegisterChange e p (accountTables s) rc acts T := by
  unfold cmdAccountRegister
  cases hkey : accountKey p with
  | none => exact View.yields_pure (.nameless hkey)
  | some id =>
    have lookup : Traced.Admits (Steady []) (lookupForRegister id) := tame_lookupForRegister id
    dsimp only
    refine View.yields_read_bind lookup (P := (· = s.accounts.lookup id))
      (lookupForRegister_value id) fun found s₁ hfound hs₁ ↦ ?_
    subst hfound
    cases hl : s.accounts.lookup id with
    | none =>
      refine View.yields_pure ?_
      rw [show accountView.state s₁ = accountTables s from hs₁]
      exact .unknown hkey hl
    | some a =>
      dsimp only
      refine View.Yields.bind (yields_beginRegistration hs₁ hl) ?_
      rintro _ acts s₂ ⟨rfl, hs₂⟩
      cases hargs : accAddArgs a with
      | error what =>
        refine yields_steady_bind (tame_logEngine canLog_nil _ _) fun _ s₃ hs₃ ↦ ?_
        refine View.yields_pure ?_
        rw [List.append_nil, show accountView.state s₃ = _ from hs₃.trans hs₂]
        exact .unusable hkey hl hargs
      | ok args =>
        have hl₂ : s₂.accounts.lookup id = some (released .registering a) := by
          rw [lookup_of_tables hs₂, AccountTables.unmapAcc_accounts,
            AccountTables.lookup_setAccount, if_pos rfl]
        dsimp only
        refine accounts_shim_bind rfl ?_
        by_cases hneg : e.rc (.pdAccAdd args) < 0
        · rw [if_pos hneg]
          refine View.Yields.imp (yields_registerFailed hl₂) ?_
          rintro _ _ _ ⟨rfl, rfl, rfl⟩
          rw [show accountTables s₂ = _ from hs₂]
          exact .refused hkey hl hargs hneg
        · rw [if_neg hneg]
          refine View.Yields.imp (yields_registerStarted _ hl₂) ?_
          rintro _ _ _ ⟨rfl, rfl, rfl⟩
          rw [show accountTables s₂ = _ from hs₂]
          exact .started hkey hl hargs (not_lt.mp hneg)

/-- What `AccountUnregister` does. -/
theorem yields_cmdAccountUnregister (p : Json) :
    accountView.Yields (cmdAccountUnregister p) e s fun _ acts T ↦
      (acts = [] ∧ T = accountTables s) ∨ ∃ id a, accountKey p = some id ∧
        s.accounts.lookup id = some a ∧ acts = removeOps a.pjsipAccId ∧
        T = ((accountTables s).setAccount id (released .unregistered a)).unmapAcc a.pjsipAccId := by
  unfold cmdAccountUnregister
  cases hkey : accountKey p with
  | none => exact View.yields_pure (Or.inl ⟨rfl, rfl⟩)
  | some id =>
    dsimp only
    cases hl : s.accounts.lookup id with
    | none =>
      have take : accountView.Yields (withLock .accounts do
          let known := ((← Traced.get).accounts.lookup id).isSome
          return (known, ← takePjsipAccId id .unregistered)) e s fun found acts T ↦
            found = (false, none) ∧ acts = [] ∧ T = accountTables s := by
        refine accounts_withLock (View.yields_get_bind ?_)
        refine View.Yields.bind (yields_takePjsipAccId_none .unregistered hl) ?_
        rintro _ acts s₁ ⟨rfl, rfl, hs₁⟩
        exact View.yields_pure ⟨by rw [hl]; rfl, rfl, hs₁⟩
      refine View.Yields.bind take ?_
      rintro _ acts s₁ ⟨rfl, rfl, hs₁⟩
      exact View.yields_pure (Or.inl ⟨rfl, hs₁⟩)
    | some a =>
      have take : accountView.Yields (withLock .accounts do
          let known := ((← Traced.get).accounts.lookup id).isSome
          return (known, ← takePjsipAccId id .unregistered)) e s fun found acts T ↦
            found = (true, a.pjsipAccId) ∧ acts = [] ∧
              T = (accountTables s).setAccount id (released .unregistered a) := by
        refine accounts_withLock (View.yields_get_bind ?_)
        refine View.Yields.bind (yields_takePjsipAccId .unregistered hl) ?_
        rintro _ acts s₁ ⟨rfl, rfl, hs₁⟩
        exact View.yields_pure ⟨by rw [hl]; rfl, rfl, hs₁⟩
      refine View.Yields.bind take ?_
      rintro _ acts s₁ ⟨rfl, rfl, hs₁⟩
      dsimp only
      refine View.Yields.bind (yields_forgetPjsipAccount _ _) ?_
      rintro _ acts s₂ ⟨rfl, hs₂⟩
      refine yields_steady_bind (tame_pushRegState canLog_nil.2 (by decide) _ _) fun _ s₃ hs₃ ↦ ?_
      refine View.yields_pure (Or.inr ⟨id, a, rfl, hl, by simp, ?_⟩)
      rw [← show accountTables s₁ = _ from hs₁, ← show accountTables s₂ = _ from hs₂]
      exact hs₃

/-- What `AccountSetSecurity` does. -/
theorem yields_cmdAccountSetSecurity (p : Json) :
    accountView.Yields (cmdAccountSetSecurity p) e s fun _ acts T ↦
      acts = [] ∧ (T = accountTables s ∨ ∃ id old new, s.accounts.lookup id = some old ∧
        new.uuid = old.uuid ∧ new.pjsipAccId = old.pjsipAccId ∧ new.regState = old.regState ∧
        T = (accountTables s).setAccount id new) := by
  unfold cmdAccountSetSecurity
  cases (p.get "id").asStr with
  | none => exact View.yields_pure ⟨rfl, Or.inl rfl⟩
  | some id =>
    dsimp only
    refine View.Yields.bind (accounts_withLock (View.yields_get_bind (v := accountView)
      (R := fun _ acts T ↦ acts = [] ∧ (T = accountTables s ∨ ∃ id old new,
        s.accounts.lookup id = some old ∧ new.uuid = old.uuid ∧
        new.pjsipAccId = old.pjsipAccId ∧ new.regState = old.regState ∧
        T = (accountTables s).setAccount id new)) ?_)) ?_
    · cases hl : s.accounts.lookup id with
      | none => exact ⟨rfl, Or.inl rfl⟩
      | some old =>
        exact ⟨rfl, Or.inr ⟨id, old, { old with
          tlsEnabled := (p.get "tls_enabled").asBool.getD old.tlsEnabled
          srtpEnabled := (p.get "srtp_enabled").asBool.getD old.srtpEnabled },
          hl, rfl, rfl, rfl, rfl⟩⟩
    · rintro found acts s₁ ⟨rfl, hs₁⟩
      cases found with
      | none => exact View.yields_pure ⟨rfl, hs₁⟩
      | some a =>
        refine yields_steady_bind (tame_pushEvent canLog_nil.2 (by decide) _) fun _ s₂ hs₂ ↦ ?_
        refine View.yields_pure ⟨rfl, ?_⟩
        rw [show accountView.state s₂ = accountView.state s₁ from hs₂]
        exact hs₁

/-- Deleting a record that is not there changes nothing. -/
theorem dropAccount_of_missing {T : AccountTables} {id : String} (h : T.accounts.lookup id = none) :
    T.dropAccount id = T := by
  have hkey : id ∉ T.accounts := AList.lookup_eq_none.mp h
  have herase : T.accounts.erase id = T.accounts :=
    AList.ext (List.kerase_of_notMem_keys hkey)
  unfold AccountTables.dropAccount
  rw [herase]

/-- What `AccountDeleteProfile` does. -/
theorem yields_cmdAccountDeleteProfile (p : Json) :
    accountView.Yields (cmdAccountDeleteProfile p) e s fun _ acts T ↦
      (acts = [] ∧ T = accountTables s) ∨ ∃ id a, (p.get "uuid").asStr = some id ∧
        s.accounts.lookup id = some a ∧ acts = removeOps a.pjsipAccId ∧
        T = ((accountTables s).dropAccount id).unmapAcc a.pjsipAccId := by
  unfold cmdAccountDeleteProfile
  cases hkey : (p.get "uuid").asStr with
  | none => exact View.yields_pure (Or.inl ⟨rfl, rfl⟩)
  | some id =>
    have drop : accountView.Yields (withLock .accounts do
        let found := (← Traced.get).accounts.lookup id
        Traced.modify fun s ↦ { s with accounts := s.accounts.erase id }
        return found) e s fun found acts T ↦
          found = s.accounts.lookup id ∧ acts = [] ∧ T = (accountTables s).dropAccount id :=
      accounts_withLock ⟨rfl, rfl, rfl⟩
    dsimp only
    refine View.Yields.bind drop ?_
    rintro _ acts s₁ ⟨rfl, rfl, hs₁⟩
    cases hl : s.accounts.lookup id with
    | none =>
      refine View.yields_pure (Or.inl ⟨rfl, ?_⟩)
      rw [← dropAccount_of_missing (T := accountTables s) hl]
      exact hs₁
    | some a =>
      dsimp only
      refine View.Yields.bind (yields_forgetPjsipAccount _ _) ?_
      rintro _ acts s₂ ⟨rfl, hs₂⟩
      refine yields_steady_bind (tame_shimDeleteProfile id) fun _ s₃ hs₃ ↦ ?_
      refine yields_steady_bind (tame_logEngine canLog_nil _ _) fun _ s₄ hs₄ ↦ ?_
      refine yields_steady_bind (tame_pushRegState canLog_nil.2 (by decide) _ _) fun _ s₅ hs₅ ↦ ?_
      refine yields_steady_bind (tame_pushEvent canLog_nil.2 (by decide) _) fun _ s₆ hs₆ ↦ ?_
      refine View.yields_pure (Or.inr ⟨id, a, rfl, hl, by simp, ?_⟩)
      rw [← show accountTables s₁ = _ from hs₁, ← show accountTables s₂ = _ from hs₂]
      exact hs₆.trans (hs₅.trans (hs₄.trans hs₃))

end Commands

end PacketDial.System
