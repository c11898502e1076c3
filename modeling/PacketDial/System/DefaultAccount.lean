import PacketDial.System.AccountMap

/-!
# The account of a call that names none

`CallStart` without an `account_id` takes the first account with a PJSIP id. An account keeps that
id when its registration fails or expires, so the account that is taken is a registered one in
every order of the table if and only if all accounts with a PJSIP id are registered.
-/

namespace PacketDial.System

open PacketDial.Core PacketDial.Lib

/-- The URI that `CallStart` dials on an account, if the payload has a target for it. -/
def destination (p : Json) (a : Account) : Option String :=
  ((p.get "uri").asStr.filter fun target ↦ trim target ≠ "").bind fun target ↦
    cString (normalizeCallTargetUri (trim target) (domainHint a))

/-- The account records. -/
def records (s : Engine) : List Account := s.accounts.entries.map Sigma.snd

/-- The run of `CallStart` takes the account and calls the target, if there is one, through its
PJSIP account. -/
structure CallsThrough (a : Account) (p : Json) (e : Env) (s : Engine) : Prop where
  picked : ((callAccount p).run e s).value = some a.uuid
  placed : ∀ pjAccId dst, .shim (.pdCallMake pjAccId dst) ∈ ((cmdCallStart p).run e s).trace ↔
    a.pjsipAccId = some pjAccId ∧ destination p a = some dst

/-- Some account is registered. -/
def SomeRegistered (s : Engine) : Prop := ∃ a ∈ records s, a.regState = .registered

/-- Every account with a PJSIP id is registered. -/
def AllRegistered (s : Engine) : Prop :=
  ∀ a ∈ records s, a.pjsipAccId.isSome = true → a.regState = .registered

instance (s : Engine) : Decidable (SomeRegistered s) := inferInstanceAs (Decidable (∃ a ∈ _, _))

instance (s : Engine) : Decidable (AllRegistered s) := inferInstanceAs (Decidable (∀ a ∈ _, _))

/-- Where an account is registered, `CallStart` without an account goes through a registered one,
in every order of the table. -/
def DefaultRegistered (s : Engine) : Prop :=
  SomeRegistered s → ∀ (e : Env) (p : Json), (p.get "account_id").asStr = none →
    ∃ a ∈ records s, a.regState = .registered ∧ CallsThrough a p e s

/-- The order that hands out first what satisfies `q`. -/
def preferring (q : Account → Bool) : IterOrder Account where
  shuffle l := l.filter q ++ l.filter (!q ·)
  perm l := List.filter_append_perm q l

namespace AccountTables

/-- The record is kept under its own uuid, and has a PJSIP id if it is registered. -/
structure Backed (id : String) (a : Account) : Prop where
  uuid : a.uuid = id
  claims : a.regState = .registered → a.pjsipAccId.isSome = true

/-- Every record is backed, and PJSIP ids are routed to accounts that claim them. -/
structure Grounded (T : AccountTables) : Prop where
  sound : Sound T.route T.owner
  backed : ∀ id a, T.accounts.lookup id = some a → Backed id a

namespace Grounded

variable {T U : AccountTables} {id : String} {a : Account}

/-- Writing a record that claims the same. -/
theorem setAccount (h : T.Grounded) (ha : Backed id a) (hpj : a.pjsipAccId = T.owner id) :
    (T.setAccount id a).Grounded where
  sound := by
    rw [owner_setAccount_of_eq hpj]
    exact h.sound
  backed j b hb := by
    rw [lookup_setAccount] at hb
    split_ifs at hb with hj
    · cases hb
      rw [hj]
      exact ha
    · exact h.backed j b hb

/-- An account that gives up its PJSIP id together with the route. -/
theorem unmapAcc (h : T.Grounded) (hroute : U.route = T.route)
    (howner : U.owner = Function.update T.owner id none)
    (hbacked : ∀ j b, U.accounts.lookup j = some b → Backed j b) :
    (U.unmapAcc (T.owner id)).Grounded where
  sound := by
    rw [owner_unmapAcc, howner]
    cases hid : T.owner id with
    | none =>
      have hupdate : Function.update T.owner id none = T.owner := by
        rw [← hid]
        exact Function.update_eq_self id T.owner
      rw [hupdate, show (U.unmapAcc none).route = T.route from hroute]
      exact h.sound
    | some pjId =>
      rw [route_unmapAcc, hroute]
      exact h.sound.letGo hid
  backed := by
    rw [unmapAcc_accounts]
    exact hbacked

/-- Letting go of a PJSIP account. -/
theorem released (h : T.Grounded) (hl : T.accounts.lookup id = some a)
    {state : RegistrationState} (hstate : state ≠ .registered) :
    ((T.setAccount id (System.released state a)).unmapAcc a.pjsipAccId).Grounded := by
  rw [← owner_of_lookup hl]
  refine h.unmapAcc rfl (T.owner_setAccount id _) fun j b hb ↦ ?_
  rw [lookup_setAccount] at hb
  split_ifs at hb with hj
  · cases hb
    exact ⟨(h.backed id a hl).uuid.trans hj.symm, fun hreg ↦ absurd hreg hstate⟩
  · exact h.backed j b hb

/-- An account without a PJSIP id may get one. -/
theorem connect (h : T.Grounded) {pjId : Int} (howner : T.owner id = none)
    (ha : a.pjsipAccId = some pjId) (huuid : a.uuid = id) :
    ((T.setAccount id a).mapAcc pjId id).Grounded where
  sound := by
    rw [route_mapAcc, owner_mapAcc, owner_setAccount, ha]
    exact h.sound.connect howner pjId
  backed j b hb := by
    rw [mapAcc_accounts, lookup_setAccount] at hb
    split_ifs at hb with hj
    · cases hb
      exact ⟨huuid.trans hj.symm, fun _ ↦ by rw [ha]; rfl⟩
    · exact h.backed j b hb

/-- An upsert keeps the state and the PJSIP id of a record, and makes new ones unregistered. -/
theorem upsert (h : T.Grounded) (p : Json) : (upsertTables p T).Grounded := by
  unfold upsertTables
  cases (p.get "uuid").asStr with
  | none => exact h
  | some uuid =>
    dsimp only
    cases hl : T.accounts.lookup uuid with
    | none =>
      have blank : Backed uuid (upsertFields p (blankAccount uuid)) :=
        ⟨rfl, fun hreg ↦ by cases hreg⟩
      refine h.setAccount blank ?_
      rw [owner, hl]
      rfl
    | some a =>
      have ha := h.backed uuid a hl
      have kept : Backed uuid (upsertFields p a) := ⟨ha.uuid, ha.claims⟩
      exact h.setAccount kept (owner_of_lookup hl).symm

end Grounded
end AccountTables

section Steps

variable {i : Input} {s s' : Engine} {T T' : AccountTables} {e : Env} {p : Json}
  {rc : EngineErrorCode} {acts : List ShimCall}

/-- A registration keeps the tables grounded. -/
theorem grounded_of_registerChange (h : T.Grounded) (hc : RegisterChange e p T rc acts T') :
    T'.Grounded := by
  have unclaimed {id : String} {a : Account} : ((T.setAccount id
      (released .registering a)).unmapAcc a.pjsipAccId).owner id = none := by
    rw [AccountTables.owner_unmapAcc, AccountTables.owner_setAccount, Function.update_self]
    rfl
  cases hc with
  | nameless | unknown => exact h
  | unusable hkey hl hargs => exact h.released hl (by simp)
  | @refused id a args hkey hl hargs hneg =>
    refine (h.released hl (by simp)).setAccount ⟨(h.backed id a hl).uuid, fun hreg ↦ ?_⟩ ?_
    · cases hreg
    · rw [unclaimed]
      rfl
  | @started id a args hkey hl hargs hpos =>
    exact (h.released hl (by simp)).connect unclaimed rfl (h.backed id a hl).uuid

/-- The account that a registration callback reports on is the one its PJSIP id is routed to. -/
theorem route_of_report {r : String × RegistrationState} (h : reportedAccount i s = some r) :
    ∃ pjId, (accountTables s).route pjId = some r.1 := by
  unfold reportedAccount at h
  split at h
  · next pjId _ _ _ _ =>
    obtain ⟨id, hid, rfl⟩ := Option.map_eq_some_iff.mp h
    exact ⟨pjId, hid⟩
  · cases h

/-- Every change keeps the tables grounded. -/
theorem grounded_of_change (h : T.Grounded) (hfound : T.route = (accountTables s).route)
    (hc : AccountChange i s T acts T') : T'.Grounded := by
  cases hc with
  | still => exact h
  | upsert => exact h.upsert _
  | @secure id old new hcmd hl hpj hstate huuid =>
    have ha := h.backed id old hl
    refine h.setAccount ⟨huuid.trans ha.uuid, ?_⟩ (hpj.trans (owner_of_lookup hl).symm)
    rw [hstate, hpj]
    exact ha.claims
  | @report id old state hreport hl =>
    obtain ⟨pjId, hroute⟩ := route_of_report hreport
    rw [← hfound] at hroute
    have hpj := h.sound pjId id hroute
    rw [owner_of_lookup hl] at hpj
    refine h.setAccount ⟨(h.backed id old hl).uuid, fun _ ↦ ?_⟩ (owner_of_lookup hl).symm
    change old.pjsipAccId.isSome = true
    rw [hpj]
    rfl
  | register hcmd hc => exact grounded_of_registerChange h hc
  | unregister hcmd hkey hl => exact h.released hl (by simp)
  | @delete p id a hcmd hkey hl =>
    rw [← owner_of_lookup hl]
    refine h.unmapAcc rfl (T.owner_dropAccount _) fun j b hb ↦ ?_
    rw [AccountTables.lookup_dropAccount] at hb
    split_ifs at hb
    exact h.backed j b hb
  | shutdown => exact ⟨Sound.clear T.owner, h.backed⟩

/-- The step lemma. -/
theorem grounded_step (h : (accountTables s).Grounded) (hs : engineStep s i = some s') :
    (accountTables s').Grounded := by
  have found : (foundTables i s).Grounded ∧ (foundTables i s).route = (accountTables s).route := by
    unfold foundTables
    split
    · exact ⟨h.upsert _, AccountTables.route_upsertTables _ _⟩
    · exact ⟨h, rfl⟩
  rw [engineStep_eq hs]
  exact grounded_of_change found.1 found.2 (account_step i s)

/-- The run lemma. -/
theorem grounded_run {is : List Input} (run : is.foldlM engineStep Engine.initial = some s) :
    (accountTables s).Grounded := by
  have initial : (accountTables Engine.initial).Grounded :=
    ⟨Sound.clear _, fun _ _ h ↦ by cases h⟩
  exact (Path.of_foldlM run).invariant initial fun _ _ _ h _ hs ↦ grounded_step h hs

end Steps

section Placing

/-- The outgoing call in an action. -/
def placeAct : Action → Option ShimCall
  | .shim (.pdCallMake pjAccId dst) => some (.pdCallMake pjAccId dst)
  | _ => none

/-- The view of a run that shows the accounts and the calls it places. -/
def placingView : View Engine Action (AList fun _ : String ↦ Account) ShimCall :=
  ⟨Engine.accounts, placeAct⟩

/-- The accounts are as they were, and no call is placed. -/
def Idle (_ : List Mutex) : Engine → List Action → Engine → Prop := placingView.Still

instance (held : List Mutex) : Traced.Composable (Idle held) :=
  inferInstanceAs (Traced.Composable placingView.Still)

/-- Idle runs are those that the view hides. -/
instance : Blind placingView Idle where
  update h := ⟨h, rfl⟩
  emit _ hv _ _ := still_action hv
  shim _ hv := still_action hv
  guard _ h := still_guard (fun _ ↦ rfl) h
  inner h := h

/-- A call is placed through an operation on calls. -/
theorem placeAct_eq_none {a : Action} (h : tableView.act a = none) : placeAct a = none := by
  have hcall := ((View.both_act_eq_none _).mp h).1
  unfold placeAct
  split
  · cases hcall
  · rfl

/-- What the tables hide places no call. -/
instance : Blind tableView Idle where
  update h := ⟨congrArg (fun c : CallTables × AccountTables ↦ c.2.accounts) h, rfl⟩
  emit _ hv _ _ := still_action (placeAct_eq_none hv)
  shim _ hv := still_action (placeAct_eq_none hv)
  guard _ h := still_guard (fun _ ↦ rfl) h
  inner h := h

variable {p : Json} {e : Env} {s : Engine} {id : String} {a : Account}

/-- The accounts in the order in which they are handed out. -/
def firstAccount (e : Env) (s : Engine) : Option Account :=
  (e.accountOrder.shuffle (records s)).find? (·.pjsipAccId.isSome)

/-- Without an account in the payload, the first with a PJSIP id is taken. -/
theorem callAccount_value (hp : (p.get "account_id").asStr = none) :
    ((callAccount p).run e s).value = (firstAccount e s).map (·.uuid) := by
  have hvalues : (accountValues.run e s).value = e.accountOrder.shuffle (records s) := rfl
  unfold callAccount defaultCallAccount firstAccount
  rw [hp]
  dsimp only
  rw [run_withLock, Traced.run_bind, hvalues]
  cases (e.accountOrder.shuffle (records s)).find? (·.pjsipAccId.isSome) with
  | none =>
    dsimp only
    rw [Traced.run_bind]
    rfl
  | some a => rfl

/-- Entering a call places none. -/
theorem idle_trackCall (call : Call) (pjCallId : Int) :
    Traced.Admits (Idle []) (trackCall call pjCallId) := by
  have names : Traced.Admits (Idle []) (withLock .accounts do
      return (← Traced.get).accounts.lookup call.accountId) :=
    tame_withLock (by decide) (tame_get.bind fun _ ↦ tame_pure _)
  have report : Traced.Admits (Idle []) (pushCallState call) := by
    unfold pushCallState
    refine names.bind fun account ↦ ?_
    exact (blind_emit (v := placingView) rfl rfl rfl).bind fun _ ↦
      tame_deliverEvent (by decide) _ _
  unfold trackCall
  refine report.bind fun _ ↦ ?_
  refine Traced.Admits.bind ?_ fun _ ↦ ?_
  · exact blind_withLock placingView (by decide) (blind_modify (v := placingView) fun _ ↦ rfl)
  · exact blind_withLock placingView (by decide) (blind_modify (v := placingView) fun _ ↦ rfl)

/-- The account and the domain that `CallStart` reads. -/
theorem callStartAccount_value (hl : s.accounts.lookup id = some a) :
    ((callStartAccount id).run e s).value = (a.pjsipAccId, domainHint a) := by
  unfold callStartAccount
  rw [run_withLock, Traced.run_bind]
  simp [hl]

/-- A target is dialled through the PJSIP account, unless its URI contains a NUL. -/
theorem places_placeCall (callId : UInt32) (uri : String) (pjAccId : Int) :
    placingView.Yields (placeCall callId id uri pjAccId) e s fun _ acts _ ↦
      acts = ((cString uri).map (.pdCallMake pjAccId)).toList := by
  unfold placeCall
  refine View.yields_still_bind (tame_logEngine (R := Idle) canLog_nil _ _) fun _ s₁ _ ↦ ?_
  refine View.yields_still_bind (tame_audioPreflight (R := Idle)) fun _ s₂ _ ↦ ?_
  cases cString uri with
  | none =>
    refine View.yields_still ((tame_logEngine (R := Idle) canLog_nil _ _).bind fun _ ↦
      tame_pure _) fun _ ↦ rfl
  | some dst =>
    have placed : placingView.trace ((shim (.pdCallMake pjAccId dst)).run e s₂).trace =
        [.pdCallMake pjAccId dst] := rfl
    refine View.yields_bind rfl rfl placed ?_
    -- whatever the answer, what follows the request is idle
    refine View.yields_still (?_ : Traced.Admits (Idle []) _) fun _ ↦ rfl
    dsimp only
    split
    · refine (tame_logEngine canLog_nil _ _).bind fun _ ↦ ?_
      exact (tame_logEngine canLog_nil _ _).bind fun _ ↦ tame_pure _
    · refine (idle_trackCall _ _).bind fun _ ↦ ?_
      exact (tame_logEngine canLog_nil _ _).bind fun _ ↦ tame_pure _

/-- A run of `CallStart` that takes an account dials through that one. -/
theorem places_cmdCallStart (hid : ((callAccount p).run e s).value = some id)
    (hl : s.accounts.lookup id = some a) :
    placingView.Yields (cmdCallStart p) e s fun _ acts _ ↦
      acts = (a.pjsipAccId.bind fun pjAccId ↦
        (destination p a).map (.pdCallMake pjAccId)).toList := by
  have account : Traced.Admits (Idle []) (callAccount p) := tame_callAccount p
  unfold cmdCallStart destination
  refine View.yields_read_bind account (P := (· = some id)) hid fun found s₁ hfound hs₁ ↦ ?_
  subst hfound
  dsimp only
  have hl₁ : s₁.accounts.lookup id = some a := by
    rw [show s₁.accounts = s.accounts from hs₁]
    exact hl
  cases (p.get "uri").asStr with
  | none => exact View.yields_pure (by simp)
  | some target =>
    dsimp only
    by_cases hblank : trim target = ""
    · rw [if_pos hblank]
      refine View.yields_still ((tame_logEngine (R := Idle) canLog_nil _ _).bind fun _ ↦
        tame_pure _) fun _ ↦ ?_
      simp [hblank]
    · rw [if_neg hblank]
      refine View.yields_read_bind (tame_callStartAccount (R := Idle) id)
        (P := (· = (a.pjsipAccId, domainHint a))) (callStartAccount_value hl₁)
        fun read s₂ hread _ ↦ ?_
      subst hread
      dsimp only
      cases a.pjsipAccId with
      | none =>
        refine View.yields_still ((tame_logEngine (R := Idle) canLog_nil _ _).bind fun _ ↦
          tame_pure _) fun _ ↦ ?_
        rfl
      | some pjAccId =>
        have fetch : Traced.Admits (Idle []) fetchNextCallId :=
          tame_get.bind fun _ ↦ (blind_modify (v := placingView) fun _ ↦ rfl).bind fun _ ↦
            tame_pure _
        have place (s₃ : Engine) : placingView.Yields (do
            placeCall (← fetchNextCallId) id
              (normalizeCallTargetUri (trim target) (domainHint a)) pjAccId) e s₃
            fun _ acts _ ↦ acts = ((cString (normalizeCallTargetUri (trim target)
              (domainHint a))).map (.pdCallMake pjAccId)).toList :=
          View.yields_still_bind fetch fun callId s₄ _ ↦ places_placeCall callId _ pjAccId
        have hdst : ((some target).filter fun target ↦ trim target ≠ "") = some target := by
          simp [hblank]
        rw [hdst, Option.bind_some, Option.bind_some]
        unfold startCall
        dsimp only
        split
        · exact View.yields_still_bind (tame_logEngine (R := Idle) canLog_nil _ _)
            fun _ s₃ _ ↦ place s₃
        · exact place s₂

/-- A placed call is seen in the trace. -/
theorem mem_placing {t : List Action} {pjAccId : Int} {dst : String} :
    .shim (.pdCallMake pjAccId dst) ∈ t ↔ .pdCallMake pjAccId dst ∈ placingView.trace t := by
  rw [View.trace, List.mem_filterMap]
  constructor
  · intro h
    exact ⟨_, h, rfl⟩
  · rintro ⟨act, hmem, hact⟩
    change placeAct act = _ at hact
    unfold placeAct at hact
    split at hact
    · cases hact
      exact hmem
    · cases hact

/-- A run of `CallStart` that takes an account calls through that one. -/
theorem callsThrough_of_picked (hid : ((callAccount p).run e s).value = some a.uuid)
    (hl : s.accounts.lookup a.uuid = some a) : CallsThrough a p e s := by
  refine ⟨hid, fun pjAccId dst ↦ ?_⟩
  have view : placingView.trace _ = _ := places_cmdCallStart hid hl
  rw [mem_placing, view]
  simp [Option.bind_eq_some_iff]

end Placing

section Choice

variable {e : Env} {s : Engine} {a : Account}

/-- The records of grounded tables are found under their uuids. -/
theorem lookup_of_mem (h : (accountTables s).Grounded) (ha : a ∈ records s) :
    s.accounts.lookup a.uuid = some a := by
  obtain ⟨⟨id, b⟩, hmem, rfl⟩ := List.mem_map.mp ha
  have hl : s.accounts.lookup id = some b := AList.mem_lookup_iff.mpr hmem
  rw [show (⟨id, b⟩ : Sigma fun _ : String ↦ Account).2.uuid = id from (h.backed id b hl).uuid]
  exact hl

/-- The account that is taken is a record with a PJSIP id. -/
theorem mem_of_firstAccount (h : firstAccount e s = some a) :
    a ∈ records s ∧ a.pjsipAccId.isSome = true := by
  have hpj := List.find?_some h
  exact ⟨(e.accountOrder.mem_shuffle).mp (List.mem_of_find?_eq_some h), hpj⟩

/-- Some order takes a given account with a PJSIP id. -/
theorem firstAccount_preferring (h : (accountTables s).Grounded) (ha : a ∈ records s)
    (hpj : a.pjsipAccId.isSome = true) :
    firstAccount { e with accountOrder := preferring (·.uuid == a.uuid) } s = some a := by
  have hfound : (((records s).filter (·.uuid == a.uuid)).find? (·.pjsipAccId.isSome)).isSome := by
    rw [List.find?_isSome]
    exact ⟨a, List.mem_filter.mpr ⟨ha, beq_self_eq_true _⟩, hpj⟩
  obtain ⟨b, hb⟩ := Option.isSome_iff_exists.mp hfound
  obtain ⟨hmem, huuid⟩ := List.mem_filter.mp (List.mem_of_find?_eq_some hb)
  have heq := lookup_of_mem h hmem
  rw [beq_iff_eq.mp huuid, lookup_of_mem h ha] at heq
  cases heq
  rw [firstAccount, preferring, List.find?_append, hb, Option.some_or]

/-- Where all accounts with a PJSIP id are registered, a registered one is taken. -/
theorem defaultRegistered_of_all (h : (accountTables s).Grounded) (hall : AllRegistered s) :
    DefaultRegistered s := by
  rintro ⟨a, ha, hreg⟩ e p hp
  have hpj : a.pjsipAccId.isSome = true :=
    (h.backed _ a (lookup_of_mem h ha)).claims hreg
  have hfound : (firstAccount e s).isSome = true := by
    rw [firstAccount, List.find?_isSome]
    exact ⟨a, (e.accountOrder.mem_shuffle).mpr ha, hpj⟩
  obtain ⟨b, hb⟩ := Option.isSome_iff_exists.mp hfound
  obtain ⟨hmem, hbpj⟩ := mem_of_firstAccount hb
  refine ⟨b, hmem, hall b hmem hbpj, callsThrough_of_picked ?_ (lookup_of_mem h hmem)⟩
  rw [callAccount_value hp, hb, Option.map_some]

/-- An account with a PJSIP id that is not registered is taken in some order. -/
theorem allRegistered_of_default (h : (accountTables s).Grounded) (hsome : SomeRegistered s)
    (hdefault : DefaultRegistered s) : AllRegistered s := by
  intro a ha hpj
  obtain ⟨b, hb, hreg, hthrough⟩ := hdefault hsome
    { quietEnv with accountOrder := preferring (·.uuid == a.uuid) } .null rfl
  have hpicked := hthrough.picked
  rw [callAccount_value rfl, firstAccount_preferring h ha hpj, Option.map_some,
    Option.some.injEq] at hpicked
  have heq := lookup_of_mem h ha
  rw [hpicked, lookup_of_mem h hb] at heq
  cases heq
  exact hreg

/-- In every reachable state, and in every order of the accounts, `CallStart` without an account
goes through a registered account where there is one, if and only if then every account with a
PJSIP id is registered. -/
theorem default_account_registered_iff {is : List Input}
    (run : is.foldlM engineStep Engine.initial = some s) :
    DefaultRegistered s ↔ (SomeRegistered s → AllRegistered s) := by
  have h := grounded_run run
  constructor
  · exact fun hdefault hsome ↦ allRegistered_of_default h hsome hdefault
  · exact fun hall hsome ↦ defaultRegistered_of_all h (hall hsome) hsome

/-- A registration that PJSIP confirms. -/
def confirmReg (pjAccId : Int) : Input := ⟨.onRegState pjAccId 300 200 .null, quietEnv⟩

/-- A registered account, as an instance. -/
theorem default_account_registered_iff_signIn :
    ∃ s, (signIn ++ [confirmReg 0]).foldlM engineStep Engine.initial = some s ∧
      SomeRegistered s ∧ DefaultRegistered s := by
  have h : ((signIn ++ [confirmReg 0]).foldlM engineStep Engine.initial).map (fun s ↦
      (decide (SomeRegistered s), decide (AllRegistered s))) = some (true, true) := by decide
  obtain ⟨s, hs, hv⟩ := Option.map_eq_some_iff.mp h
  obtain ⟨hsome, hall⟩ := Prod.mk.inj hv
  exact ⟨s, hs, of_decide_eq_true hsome,
    (default_account_registered_iff hs).mpr fun _ ↦ of_decide_eq_true hall⟩

/-- A second account that signs in and is refused. -/
def refusedSignIn : List Input :=
  [⟨.register (.text "b") (.text "v") (.text "p") (.text "d"), { quietEnv with rc := fun _ ↦ 1 }⟩,
    ⟨.onRegState 1 0 403 (.text "Forbidden"), quietEnv⟩]

/-- An order of the accounts in which the second comes first. -/
def secondFirst : Env := { quietEnv with accountOrder := preferring (·.uuid == "b") }

/-- While the account `a` is registered, a call without an account goes through `b`, whose
registration was refused. -/
theorem default_account_refused :
    ∃ s b, (signIn ++ [confirmReg 0] ++ refusedSignIn).foldlM engineStep Engine.initial = some s ∧
      SomeRegistered s ∧ s.accounts.lookup "b" = some b ∧ b.regState = .failed "403 Forbidden" ∧
      Action.shim (.pdCallMake 1 "sip:127@d") ∈
        ((cmdCallStart (.obj [("uri", .str "127")])).run secondFirst s).trace ∧
      ¬ DefaultRegistered s := by
  have h : ((signIn ++ [confirmReg 0] ++ refusedSignIn).foldlM engineStep
      Engine.initial).map (fun s ↦ (decide (SomeRegistered s), (s.accounts.lookup "b").map fun b ↦
        (b.regState, b.pjsipAccId, domainHint b))) =
      some (true, some (.failed "403 Forbidden", some 1, some "d")) := by decide
  obtain ⟨s, hs, hv⟩ := Option.map_eq_some_iff.mp h
  obtain ⟨hsome, hb⟩ := Prod.mk.inj hv
  obtain ⟨b, hl, hfields⟩ := Option.map_eq_some_iff.mp hb
  simp only [Prod.mk.injEq] at hfields
  obtain ⟨hstate, hpj, hhint⟩ := hfields
  have grounded := grounded_run hs
  have huuid : b.uuid = "b" := (grounded.backed "b" b hl).uuid
  have hmem : b ∈ records s := List.mem_map_of_mem (AList.mem_lookup_iff.mp hl)
  have hclaims : b.pjsipAccId.isSome = true := by
    rw [hpj]
    rfl
  have hfirst : firstAccount secondFirst s = some b := by
    unfold secondFirst
    rw [← huuid]
    exact firstAccount_preferring grounded hmem hclaims
  have through : CallsThrough b (.obj [("uri", .str "127")]) secondFirst s := by
    refine callsThrough_of_picked ?_ (lookup_of_mem grounded hmem)
    rw [callAccount_value (by decide), hfirst, Option.map_some]
  refine ⟨s, b, hs, of_decide_eq_true hsome, hl, hstate, ?_, fun hdefault ↦ ?_⟩
  · rw [through.placed, destination, hhint]
    exact ⟨hpj, by decide⟩
  · have hall := allRegistered_of_default grounded (of_decide_eq_true hsome) hdefault
    have hreg := hall b hmem hclaims
    rw [hstate] at hreg
    cases hreg

end Choice

end PacketDial.System
