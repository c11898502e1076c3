import PacketDial.Ui.Accounts

/-!
# The account list next to the engine

The app folds the events on accounts into its list. The list has the accounts of the engine, with
their names and registration states, as long as no record is deleted and none is renamed: a
deletion pushes a registration state of the deleted account, which the app adds again, and an
upsert of a known account pushes nothing.
-/

namespace PacketDial.Ui

open PacketDial.Core PacketDial.Lib PacketDial.System

/-- An operation on accounts with what its run gets from outside. -/
structure AccountInput where
  op : AccountOp
  env : Env

/-- The engine, and the account list of the app. -/
structure Registry where
  engine : Engine
  accounts : Accounts

/-- Before the first operation neither has an account. -/
def Registry.initial : Registry := ⟨Engine.initial, ∅⟩

/-- One operation, run to its end, and the app that handles what it announced. -/
def registryStep (r : Registry) (i : AccountInput) : Option Registry :=
  if completes (i.op.outcome i.env r.engine).trace then
    some
      { engine := (i.op.outcome i.env r.engine).state
        accounts := (i.op.news i.env r.engine).foldl handleAccountEvent r.accounts }
  else none

/-- The app has the accounts of the engine, with their names and registration states. -/
structure Mirrored (r : Registry) : Prop where
  keys : ∀ id, id ∈ r.accounts ↔ id ∈ r.engine.accounts
  shown : ∀ id a b, r.accounts.lookup id = some a → r.engine.accounts.lookup id = some b →
    a.shown = shownOf b

/-- The step deletes a record, or it renames one. -/
def Conceals (r : Registry) (i : AccountInput) : Prop := (accountTables r.engine).Conceals i.op

instance (r : Registry) (i : AccountInput) : Decidable (Conceals r i) :=
  inferInstanceAs (Decidable ((accountTables r.engine).Conceals i.op))

/-- Key by key, the app shows what it should. -/
def SameAccounts (accounts : Accounts) (T : AccountTables) : Prop :=
  ∀ id, (accounts.lookup id).map Account.shown = (T.accounts.lookup id).map shownOf

section Agreement

variable {accounts accounts' : Accounts} {T T' : AccountTables} {id : String} {a : Account}
  {b : Core.Account}

/-- The mirror, key by key. -/
theorem mirrored_iff {r : Registry} :
    Mirrored r ↔ SameAccounts r.accounts (accountTables r.engine) := by
  constructor
  · intro h id
    have hkeys := h.keys id
    rw [← AList.lookup_isSome, ← AList.lookup_isSome] at hkeys
    change _ = (r.engine.accounts.lookup id).map shownOf
    cases ha : r.accounts.lookup id with
    | none =>
      cases hb : r.engine.accounts.lookup id with
      | none => rfl
      | some b =>
        rw [ha, hb] at hkeys
        cases hkeys.mpr rfl
    | some a =>
      cases hb : r.engine.accounts.lookup id with
      | none =>
        rw [ha, hb] at hkeys
        cases hkeys.mp rfl
      | some b =>
        rw [Option.map_some, Option.map_some, h.shown id a b ha hb]
  · intro h
    refine ⟨fun id ↦ ?_, fun id a b ha hb ↦ ?_⟩
    · have hid := congrArg Option.isSome (h id)
      rw [Option.isSome_map, Option.isSome_map] at hid
      rw [← AList.lookup_isSome, ← AList.lookup_isSome, hid]
      rfl
    · have hid : _ = (r.engine.accounts.lookup id).map shownOf := h id
      rw [ha, hb, Option.map_some, Option.map_some] at hid
      exact Option.some.inj hid

/-- The app and the engine write the same account. -/
theorem SameAccounts.write (h : SameAccounts accounts T) (hshown : a.shown = shownOf b) :
    SameAccounts (accounts.insert id a) (T.setAccount id b) := by
  intro j
  rw [AccountTables.lookup_setAccount]
  by_cases hj : j = id
  · rw [hj, AList.lookup_insert, if_pos rfl, Option.map_some, Option.map_some, hshown]
  · rw [AList.lookup_insert_ne hj, if_neg hj]
    exact h j

/-- The engine writes an account alone: the app still agrees just if the account shows the same. -/
theorem SameAccounts.silent {old : Core.Account} (h : SameAccounts accounts T)
    (hl : T.accounts.lookup id = some old) :
    SameAccounts accounts (T.setAccount id b) ↔ shownOf b = shownOf old := by
  have hid := h id
  rw [hl, Option.map_some] at hid
  constructor
  · intro h'
    have hid' := h' id
    rw [AccountTables.lookup_setAccount, if_pos rfl, hid, Option.map_some] at hid'
    exact (Option.some.inj hid').symm
  · intro hshown j
    rw [AccountTables.lookup_setAccount]
    by_cases hj : j = id
    · rw [hj, hid, if_pos rfl, Option.map_some, hshown]
    · rw [if_neg hj]
      exact h j

/-- The app has an account that the engine has not. -/
theorem not_agrees_of_extra (hl : T.accounts.lookup id = none) :
    ¬ SameAccounts (accounts.insert id a) T := by
  intro h
  have hid := h id
  rw [AList.lookup_insert, hl] at hid
  cases hid

end Agreement

section Steps

variable {r r' : Registry} {i : AccountInput}

/-- A step is the run of its operation and the handling of what it announced. -/
theorem registryStep_eq (h : registryStep r i = some r') :
    AccountNews (accountTables r.engine) i.op (i.op.news i.env r.engine)
      (accountTables r'.engine) ∧
      r'.accounts = (i.op.news i.env r.engine).foldl handleAccountEvent r.accounts := by
  unfold registryStep at h
  split at h
  · next hcompletes =>
    cases h
    exact ⟨accountNews_of_completes hcompletes, rfl⟩
  · cases h

/-- The routes and the records agree, and so do the app and the engine. -/
structure Tracked (r : Registry) : Prop where
  sound : Sound (accountTables r.engine).route (accountTables r.engine).owner
  agrees : SameAccounts r.accounts (accountTables r.engine)

/-- Every step keeps the routes sound. -/
theorem sound_accountNews {T T' : AccountTables} {op : AccountOp} {news : List News}
    (h : AccountNews T op news T') (hsound : Sound T.route T.owner) :
    Sound T'.route T'.owner := by
  cases h with
  | still => exact hsound
  | @silent id old new hl hpj hstate hop =>
    have howner : (T.setAccount id new).owner = T.owner :=
      AccountTables.owner_setAccount_of_eq (hpj.trans (owner_of_lookup hl).symm)
    rw [howner]
    exact hsound
  | told hop haccounts hnews hroutes => exact hroutes hsound
  | deleted hop hl => exact sound_released hl rfl (T.owner_dropAccount _) hsound
  | lost => exact hsound

/-- A step keeps the mirror just if it neither deletes nor renames a record. -/
theorem agrees_accountNews {T T' : AccountTables} {op : AccountOp} {news : List News}
    {accounts : Accounts} (h : AccountNews T op news T') (hsound : Sound T.route T.owner)
    (hagrees : SameAccounts accounts T) :
    SameAccounts (news.foldl handleAccountEvent accounts) T' ↔ ¬ T.Conceals op := by
  cases h with
  | still hop => exact iff_of_true hagrees hop
  | @silent id old new hl hpj hstate hop =>
    rw [hop, not_not, List.foldl_nil, hagrees.silent hl]
    unfold shownOf
    rw [hstate, Shown.mk.injEq]
    simp
  | @told id new news T' hop haccounts hnews hroutes =>
    obtain ⟨a, hhandled, hshown⟩ := handle_tells hnews accounts
    have hwrite : SameAccounts (accounts.insert id a) (T.setAccount id new) := hagrees.write hshown
    refine iff_of_true ?_ hop
    rw [List.foldl_cons, List.foldl_nil, hhandled]
    intro j
    rw [haccounts]
    exact hwrite j
  | @deleted id a hop hl =>
    obtain ⟨b, hhandled, -⟩ := handle_regNews accounts id none .unregistered
    refine iff_of_false ?_ (not_not_intro hop)
    rw [List.foldl_cons, List.foldl_cons, List.foldl_nil, hhandled, handle_deletedNews]
    apply not_agrees_of_extra
    rw [AccountTables.unmapAcc_accounts, AccountTables.lookup_dropAccount, if_pos rfl]
  | @lost pjAccId id state hop hroute hl =>
    have hclaim := hsound pjAccId id hroute
    rw [AccountTables.owner, hl] at hclaim
    cases hclaim

/-- The step lemma. -/
theorem tracked_step (h : Tracked r) (hs : registryStep r i = some r') :
    Tracked r' ↔ ¬ Conceals r i := by
  obtain ⟨hnews, haccounts⟩ := registryStep_eq hs
  rw [Conceals, ← agrees_accountNews hnews h.sound h.agrees, ← haccounts]
  exact ⟨Tracked.agrees, fun hagrees ↦ ⟨sound_accountNews hnews h.sound, hagrees⟩⟩

end Steps

section Runs

variable {r : Registry} {is : List AccountInput}

/-- In every state of a run of account operations the app has the accounts of the engine, with
their names and registration states, if and only if the run deletes no account and upserts none
under another name. -/
theorem account_mirror_iff (run : is.foldlM registryStep Registry.initial = some r) :
    Path registryStep (fun u i ↦ ¬ Conceals u i) Registry.initial is r ↔
      ∀ js u, js <+: is → js.foldlM registryStep Registry.initial = some u → Mirrored u := by
  have initial : Tracked Registry.initial := ⟨fun _ _ h ↦ (by cases h), fun _ ↦ rfl⟩
  rw [Path.iff_always initial (fun _ _ _ h hs ↦ tracked_step h hs) run]
  constructor
  · intro always js u hjs hrun
    exact mirrored_iff.mpr (always js u hjs hrun).agrees
  · intro always js u hjs hrun
    have hsound := (Path.of_foldlM hrun).invariant
      (I := fun u ↦ Sound (accountTables u.engine).route (accountTables u.engine).owner)
      initial.sound fun _ _ _ h _ hs ↦ sound_accountNews (registryStep_eq hs).1 h
    exact ⟨hsound, mirrored_iff.mp (always js u hjs hrun)⟩

/-- The account `a` under a name. -/
def namedAccount (name : String) : Json := .obj [("uuid", .str "a"), ("account_name", .str name)]

/-- The payload that names the account. -/
def thatAccount : Json := .obj [("uuid", .str "a")]

/-- The account is made, registered and accepted by its registrar. -/
def goOnline : List AccountInput :=
  [⟨.upsert (namedAccount "Office"), quietEnv⟩, ⟨.register thatAccount, quietEnv⟩,
    ⟨.onRegState 0 3600 200 .null, quietEnv⟩]

/-- A registration, as an instance. -/
theorem account_mirror_iff_online : ∃ r a, goOnline.foldlM registryStep Registry.initial = some r ∧
    r.accounts.lookup "a" = some a ∧ a.shown = ⟨"Office", "", .registered, ""⟩ ∧ Mirrored r := by
  have h : (goOnline.foldlM (fun u i ↦ if ¬ Conceals u i then registryStep u i else none)
      Registry.initial).map (fun r ↦ (r.accounts.lookup "a").map Account.shown) =
        some (some ⟨"Office", "", .registered, ""⟩) := by decide
  obtain ⟨r, hr, ha⟩ := Option.map_eq_some_iff.mp h
  obtain ⟨a, hl, hshown⟩ := Option.map_eq_some_iff.mp ha
  have path : Path registryStep (fun u i ↦ ¬ Conceals u i) Registry.initial _ r :=
    Path.of_guarded hr
  have run := path.foldlM_eq
  exact ⟨r, a, run, hl, hshown, (account_mirror_iff run).mp path goOnline r List.prefix_rfl run⟩

/-- The deletion of the account. -/
def deleteAccount : AccountInput := ⟨.deleteProfile thatAccount, quietEnv⟩

/-- The app still lists a deleted account. -/
theorem deleted_account_listed :
    ∃ r, (goOnline ++ [deleteAccount]).foldlM registryStep Registry.initial = some r ∧
      (r.accounts.lookup "a").isSome ∧ r.engine.accounts.lookup "a" = none ∧ ¬ Mirrored r := by
  have h : ((goOnline ++ [deleteAccount]).foldlM registryStep Registry.initial).map (fun r ↦
      ((r.accounts.lookup "a").isSome, r.engine.accounts.lookup "a")) = some (true, none) := by
    decide
  obtain ⟨r, hr, hv⟩ := Option.map_eq_some_iff.mp h
  obtain ⟨hlisted, hgone⟩ := Prod.mk.inj hv
  refine ⟨r, hr, hlisted, hgone, fun hmirrored ↦ ?_⟩
  have hkey := (hmirrored.keys "a").mp (AList.lookup_isSome.mp hlisted)
  exact AList.lookup_eq_none.mp hgone hkey

end Runs

end PacketDial.Ui
