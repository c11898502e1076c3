import PacketDial.System.AccountSteps
import PacketDial.System.Edits

/-!
# Consistency of the account tables

`PJSIP_ACC_MAP` is the inverse of the PJSIP ids in the account records: a partial bijection. It
stays one over a run if and only if the engine is never shut down while an account has a PJSIP id.
-/

namespace PacketDial.System

open PacketDial.Core PacketDial.Lib

/-- What a step does to PJSIP accounts. -/
def Input.accountActs (i : Input) (s : Engine) : List ShimCall :=
  accountView.trace (i.outcome s).trace

/-- The live PJSIP accounts after a sequence of operations, none if `pd_acc_add` hands out the id
of a live one. -/
def liveAfter (e : Env) (live : List Int) : List ShimCall → Option (List Int)
  | [] => some live
  | .pdAccAdd args :: acts =>
    let pjId := e.rc (.pdAccAdd args)
    if pjId < 0 then liveAfter e live acts
    else if pjId ∈ live then none
    else liveAfter e (pjId :: live) acts
  | .pdAccRemove pjId :: acts => liveAfter e (live.filter (· ≠ pjId)) acts
  | .pdShutdown :: acts => liveAfter e [] acts
  | _ :: acts => liveAfter e live acts

/-- The engine, and the accounts that live in the current PJSIP session. -/
structure AccountWorld where
  engine : Engine
  live : List Int

/-- Before the first operation there are no accounts. -/
def AccountWorld.initial : AccountWorld := ⟨Engine.initial, []⟩

/-- One step of the engine under PJSIP's promise: `pd_acc_add` returns no id that is live. -/
def accountStep (w : AccountWorld) (i : Input) : Option AccountWorld :=
  (liveAfter i.env w.live (i.accountActs w.engine)).bind fun live ↦
    (engineStep w.engine i).map fun s ↦ ⟨s, live⟩

namespace AccountTables

/-- The account that a PJSIP id is routed to. -/
def route (T : AccountTables) (pjId : Int) : Option String := T.accMap.lookup pjId

/-- The PJSIP id that an account claims. -/
def owner (T : AccountTables) (id : String) : Option Int :=
  (T.accounts.lookup id).bind (·.pjsipAccId)

/-- The routes and the claims are inverse to each other. -/
def Paired (T : AccountTables) : Prop := Sound T.route T.owner ∧ Complete T.route T.owner

/-- Only live PJSIP accounts are routed. -/
def RoutesLive (T : AccountTables) (live : List Int) : Prop :=
  ∀ pjId id, T.route pjId = some id → pjId ∈ live

section Updates

variable (T : AccountTables)

/-- Writing a record changes what it claims. -/
theorem owner_setAccount (id : String) (a : Account) :
    (T.setAccount id a).owner = Function.update T.owner id a.pjsipAccId := by
  funext j
  unfold owner
  by_cases h : j = id
  · rw [lookup_setAccount, if_pos h, h, Function.update_self]
    rfl
  · rw [lookup_setAccount, if_neg h, Function.update_of_ne h]

/-- Deleting a record gives up what it claims. -/
theorem owner_dropAccount (id : String) :
    (T.dropAccount id).owner = Function.update T.owner id none := by
  funext j
  unfold owner
  by_cases h : j = id
  · rw [lookup_dropAccount, if_pos h, h, Function.update_self]
    rfl
  · rw [lookup_dropAccount, if_neg h, Function.update_of_ne h]

/-- Routing an id. -/
theorem route_mapAcc (pjId : Int) (id : String) :
    (T.mapAcc pjId id).route = Function.update T.route pjId (some id) :=
  lookup_insert_eq pjId id T.accMap

/-- Routing an id nowhere. -/
theorem route_unmapAcc (pjId : Int) :
    (T.unmapAcc (some pjId)).route = Function.update T.route pjId none :=
  lookup_erase_eq pjId T.accMap

@[simp] theorem owner_mapAcc (pjId : Int) (id : String) : (T.mapAcc pjId id).owner = T.owner := rfl

@[simp] theorem owner_unmapAcc (pjId : Option Int) : (T.unmapAcc pjId).owner = T.owner := by
  cases pjId <;> rfl

end Updates

/-- Records that claim the same are written over each other without effect on the claims. -/
theorem owner_setAccount_of_eq {T : AccountTables} {id : String} {a : Account}
    (h : a.pjsipAccId = T.owner id) : (T.setAccount id a).owner = T.owner := by
  rw [owner_setAccount, h, Function.update_eq_self]

/-- An upsert claims nothing. -/
theorem owner_upsertTables (p : Json) (T : AccountTables) : (upsertTables p T).owner = T.owner := by
  unfold upsertTables
  cases (p.get "uuid").asStr with
  | none => rfl
  | some uuid =>
    apply owner_setAccount_of_eq
    unfold owner
    cases T.accounts.lookup uuid <;> rfl

/-- An upsert routes nothing. -/
theorem route_upsertTables (p : Json) (T : AccountTables) : (upsertTables p T).route = T.route := by
  unfold upsertTables
  cases (p.get "uuid").asStr <;> rfl

namespace Paired

variable {T U : AccountTables}

/-- Tables with the same routes and claims. -/
theorem congr (h : T.Paired) (hroute : U.route = T.route) (howner : U.owner = T.owner) :
    U.Paired := by
  unfold Paired
  rw [hroute, howner]
  exact h

/-- An account that gives up its PJSIP id together with the route. -/
theorem release (h : T.Paired) {id : String} (hroute : U.route = T.route)
    (howner : U.owner = Function.update T.owner id none) : (U.unmapAcc (T.owner id)).Paired := by
  unfold Paired
  rw [owner_unmapAcc, howner]
  cases hid : T.owner id with
  | none =>
    have howner : Function.update T.owner id none = T.owner := by
      rw [← hid]
      exact Function.update_eq_self id T.owner
    rw [show (U.unmapAcc none).route = T.route from hroute, howner]
    exact h
  | some pjId =>
    have hmap := h.2 pjId id hid
    rw [route_unmapAcc, hroute]
    exact ⟨h.1.disconnect hmap, h.2.disconnect hmap⟩

/-- An account without a PJSIP id may get one that is not routed. -/
theorem connect (h : T.Paired) {id : String} {pjId : Int} {a : Account}
    (howner : T.owner id = none) (hroute : T.route pjId = none) (ha : a.pjsipAccId = some pjId) :
    ((T.setAccount id a).mapAcc pjId id).Paired := by
  unfold Paired
  rw [route_mapAcc, owner_mapAcc, owner_setAccount, ha]
  exact ⟨h.1.connect howner pjId, h.2.connect hroute id⟩

end Paired
end AccountTables

section Live

variable {e : Env} {live live' : List Int} {T U : AccountTables}

/-- A PJSIP account that is removed is no longer live. -/
def withoutId (pjId : Option Int) (live : List Int) : List Int :=
  match pjId with
  | some pjId => live.filter (· ≠ pjId)
  | none => live

/-- The live accounts after an account let go of its PJSIP account. -/
theorem liveAfter_removeOps (pjId : Option Int) (acts : List ShimCall) :
    liveAfter e live (removeOps pjId ++ acts) = liveAfter e (withoutId pjId live) acts := by
  cases pjId <;> rfl

/-- The live accounts after `pd_acc_add` refused. -/
theorem liveAfter_refused {args : AccAddArgs} (h : e.rc (.pdAccAdd args) < 0) :
    liveAfter e live [.pdAccAdd args] = some live := by
  rw [liveAfter, if_pos h]
  rfl

/-- The live accounts after `pd_acc_add` handed out an id, which was not live. -/
theorem liveAfter_started {args : AccAddArgs} (h : 0 ≤ e.rc (.pdAccAdd args))
    (hlive : liveAfter e live [.pdAccAdd args] = some live') :
    e.rc (.pdAccAdd args) ∉ live ∧ live' = e.rc (.pdAccAdd args) :: live := by
  rw [liveAfter, if_neg (not_lt.mpr h)] at hlive
  split_ifs at hlive with hmem
  exact ⟨hmem, (Option.some.inj hlive).symm⟩

namespace AccountTables.RoutesLive

/-- Tables with the same routes. -/
theorem congr (h : T.RoutesLive live) (hroute : U.route = T.route) : U.RoutesLive live := by
  unfold RoutesLive
  rw [hroute]
  exact h

/-- Removing a PJSIP account and its route. -/
theorem unmapAcc (h : T.RoutesLive live) (pjId : Option Int) :
    (T.unmapAcc pjId).RoutesLive (withoutId pjId live) := by
  cases pjId with
  | none => exact h
  | some pjId =>
    intro q id hq
    rw [route_unmapAcc] at hq
    by_cases hne : q = pjId
    · rw [hne, Function.update_self] at hq
      cases hq
    · rw [Function.update_of_ne hne] at hq
      simpa [withoutId, hne] using h q id hq

/-- Routing a PJSIP account that was added. -/
theorem mapAcc (h : T.RoutesLive live) (pjId : Int) (id : String) :
    (T.mapAcc pjId id).RoutesLive (pjId :: live) := by
  intro q j hq
  rw [route_mapAcc] at hq
  by_cases hne : q = pjId
  · exact hne ▸ List.mem_cons_self
  · rw [Function.update_of_ne hne] at hq
    exact List.mem_cons_of_mem _ (h q j hq)

end AccountTables.RoutesLive
end Live

/-- The engine is shut down while an account has a PJSIP id. -/
def StrandsAccount (s : Engine) (i : Input) : Prop :=
  isShutdown i.op = true ∧ s.initialized = true ∧
    ∃ a ∈ s.accounts.entries.map Sigma.snd, a.pjsipAccId.isSome = true

instance (s : Engine) (i : Input) : Decidable (StrandsAccount s i) :=
  inferInstanceAs (Decidable (_ ∧ _ ∧ ∃ a ∈ _, _))

/-- The account that the command of an input is about. -/
def namedAccount (i : Input) (s : Engine) : Option String :=
  (accountCommandOf i s).bind fun (cmd, p) ↦
    if cmd = "AccountDeleteProfile" then (p.get "uuid").asStr else accountKey p

section Steps

variable {i : Input} {s : Engine} {live live' : List Int} {T T' : AccountTables}
  {e : Env} {p : Json} {rc : EngineErrorCode} {acts : List ShimCall}

/-- The claim of a record that is there. -/
theorem owner_of_lookup {id : String} {a : Account} (hl : T.accounts.lookup id = some a) :
    T.owner id = a.pjsipAccId := by
  rw [AccountTables.owner, hl, Option.bind_some]

/-- Letting go of a PJSIP account keeps the tables paired. -/
theorem paired_released (h : T.Paired) {id : String} {a : Account} (state : RegistrationState)
    (hl : T.accounts.lookup id = some a) :
    ((T.setAccount id (released state a)).unmapAcc a.pjsipAccId).Paired := by
  rw [← owner_of_lookup hl]
  exact h.release rfl (T.owner_setAccount id _)

/-- A registration keeps the tables paired. -/
theorem paired_of_registerChange (h : T.Paired) (hroutes : T.RoutesLive live)
    (hlive : liveAfter e live acts = some live') (hc : RegisterChange e p T rc acts T') :
    T'.Paired := by
  cases hc with
  | nameless => exact h
  | unknown => exact h
  | unusable hkey hl hargs => exact paired_released h _ hl
  | @refused id a args hkey hl hargs hneg =>
    refine (paired_released h .registering hl).congr rfl ?_
    apply AccountTables.owner_setAccount_of_eq
    rw [AccountTables.owner_unmapAcc, AccountTables.owner_setAccount, Function.update_self]
    rfl
  | @started id a args hkey hl hargs hpos =>
    rw [liveAfter_removeOps] at hlive
    have hfresh := (liveAfter_started hpos hlive).1
    have hgone : (T.setAccount id (released .registering a)).RoutesLive live := hroutes
    refine (paired_released h .registering hl).connect ?_ ?_ rfl
    · rw [AccountTables.owner_unmapAcc, AccountTables.owner_setAccount, Function.update_self]
      rfl
    · cases hr : ((T.setAccount id (released .registering a)).unmapAcc a.pjsipAccId).route
          (e.rc (.pdAccAdd args)) with
      | none => rfl
      | some j => exact absurd (hgone.unmapAcc _ _ j hr) hfresh

/-- A registration routes live PJSIP accounts. -/
theorem routesLive_of_registerChange (hroutes : T.RoutesLive live)
    (hlive : liveAfter e live acts = some live') (hc : RegisterChange e p T rc acts T') :
    T'.RoutesLive live' := by
  cases hc with
  | nameless | unknown =>
    cases hlive
    exact hroutes
  | @unusable id what a hkey hl hargs =>
    rw [← List.append_nil (removeOps _), liveAfter_removeOps] at hlive
    cases hlive
    have h : (T.setAccount id (released .registering a)).RoutesLive live := hroutes
    exact h.unmapAcc _
  | @refused id a args hkey hl hargs hneg =>
    rw [liveAfter_removeOps, liveAfter_refused hneg] at hlive
    cases hlive
    have h : (T.setAccount id (released .registering a)).RoutesLive live := hroutes
    exact (h.unmapAcc _).congr rfl
  | @started id a args hkey hl hargs hpos =>
    rw [liveAfter_removeOps] at hlive
    obtain ⟨-, rfl⟩ := liveAfter_started hpos hlive
    have h : (T.setAccount id (released .registering a)).RoutesLive live := hroutes
    exact ((h.unmapAcc _).congr rfl).mapAcc _ id

/-- Every change routes live PJSIP accounts. -/
theorem routesLive_of_change (hroutes : T.RoutesLive live)
    (hlive : liveAfter i.env live acts = some live') (hc : AccountChange i s T acts T') :
    T'.RoutesLive live' := by
  cases hc with
  | still | secure | report =>
    cases hlive
    exact hroutes
  | upsert =>
    cases hlive
    exact hroutes.congr (AccountTables.route_upsertTables _ T)
  | register hcmd h => exact routesLive_of_registerChange hroutes hlive h
  | @unregister p id a hcmd hkey hl =>
    rw [← List.append_nil (removeOps _), liveAfter_removeOps] at hlive
    cases hlive
    have h : (T.setAccount id (released .unregistered a)).RoutesLive live := hroutes
    exact h.unmapAcc _
  | @delete p id a hcmd hkey hl =>
    rw [← List.append_nil (removeOps _), liveAfter_removeOps] at hlive
    cases hlive
    have h : (T.dropAccount id).RoutesLive live := hroutes
    exact h.unmapAcc _
  | shutdown => exact fun _ _ h ↦ by cases h

/-- Every change but a shutdown keeps the tables paired. -/
theorem paired_of_change (hnot : ¬ (isShutdown i.op = true ∧ s.initialized = true))
    (h : T.Paired) (hroutes : T.RoutesLive live) (hlive : liveAfter i.env live acts = some live')
    (hc : AccountChange i s T acts T') : T'.Paired := by
  cases hc with
  | still => exact h
  | upsert =>
    exact h.congr (AccountTables.route_upsertTables _ T) (AccountTables.owner_upsertTables _ T)
  | secure hcmd hl hpj hstate =>
    refine h.congr rfl (AccountTables.owner_setAccount_of_eq ?_)
    rw [hpj, owner_of_lookup hl]
  | report hreport hl =>
    exact h.congr rfl (AccountTables.owner_setAccount_of_eq (owner_of_lookup hl).symm)
  | register hcmd hc => exact paired_of_registerChange h hroutes hlive hc
  | unregister hcmd hkey hl => exact paired_released h _ hl
  | delete hcmd hkey hl =>
    rw [← owner_of_lookup hl]
    exact h.release rfl (T.owner_dropAccount _)
  | shutdown hop hinit => exact absurd ⟨by rw [hop]; rfl, hinit⟩ hnot

/-- The tables without their routes are paired just if no account claims a PJSIP id. -/
theorem paired_cleared_iff :
    ({ T with accMap := ∅ } : AccountTables).Paired ↔
      ∀ a ∈ T.accounts.entries.map Sigma.snd, a.pjsipAccId = none := by
  constructor
  · rintro ⟨-, hcomplete⟩ a ha
    obtain ⟨⟨id, b⟩, hmem, rfl⟩ := List.mem_map.mp ha
    have hl : T.accounts.lookup id = some b := AList.mem_lookup_iff.mpr hmem
    cases hpj : b.pjsipAccId with
    | none => rfl
    | some pjId =>
      have hroute := hcomplete pjId id ((owner_of_lookup hl).trans hpj)
      cases hroute
  · intro h
    have unclaimed (id : String) : T.owner id = none := by
      cases hl : T.accounts.lookup id with
      | none => simp [AccountTables.owner, hl]
      | some a =>
        rw [owner_of_lookup hl]
        exact h a (List.mem_map_of_mem (AList.mem_lookup_iff.mp hl))
    exact ⟨Sound.clear T.owner, Complete.clear unclaimed⟩

/-- The claims and routes that the command of an input finds. -/
theorem paired_foundTables (h : (accountTables s).Paired) : (foundTables i s).Paired := by
  unfold foundTables
  split
  · exact h.congr (AccountTables.route_upsertTables _ _) (AccountTables.owner_upsertTables _ _)
  · exact h

/-- The routes that the command of an input finds. -/
theorem routesLive_foundTables (h : (accountTables s).RoutesLive live) :
    (foundTables i s).RoutesLive live := by
  unfold foundTables
  split
  · exact h.congr (AccountTables.route_upsertTables _ _)
  · exact h

end Steps

/-- `PJSIP_ACC_MAP` holds exactly the PJSIP ids of the accounts, under the accounts. -/
def AccountsMatched (s : Engine) : Prop :=
  ∀ (pjId : Int) (id : String), s.pjsipAccMap.lookup pjId = some id ↔
    ∃ a, s.accounts.lookup id = some a ∧ a.pjsipAccId = some pjId

/-- No two accounts have the same PJSIP id. -/
def AccountsDistinct (s : Engine) : Prop :=
  ∀ (pjId : Int) (id id' : String) (a a' : Account), s.accounts.lookup id = some a →
    s.accounts.lookup id' = some a' → a.pjsipAccId = some pjId → a'.pjsipAccId = some pjId →
      id = id'

/-- Every PJSIP id that an input removes is no other account's than the one its command names. -/
def RemovesOwn (s : Engine) (i : Input) : Prop :=
  ∀ pjId, .pdAccRemove pjId ∈ i.accountActs s → ∀ id a, s.accounts.lookup id = some a →
    a.pjsipAccId = some pjId → namedAccount i s = some id

/-- The invariant of the runs. -/
structure AccountsPaired (w : AccountWorld) : Prop where
  paired : (accountTables w.engine).Paired
  routesLive : (accountTables w.engine).RoutesLive w.live

section Matched

variable {i : Input} {s : Engine}

/-- Paired tables are tables that match. -/
theorem paired_iff_matched : (accountTables s).Paired ↔ AccountsMatched s := by
  have claims (pjId : Int) (id : String) : (accountTables s).owner id = some pjId ↔
      ∃ a, s.accounts.lookup id = some a ∧ a.pjsipAccId = some pjId :=
    Option.bind_eq_some_iff
  constructor
  · intro h pjId id
    rw [← claims]
    exact ⟨h.1 pjId id, h.2 pjId id⟩
  · intro h
    refine ⟨fun pjId id hr ↦ ?_, fun pjId id ho ↦ ?_⟩
    · exact (claims pjId id).mpr ((h pjId id).mp hr)
    · exact (h pjId id).mpr ((claims pjId id).mp ho)

/-- In tables that match no two accounts have the same PJSIP id. -/
theorem AccountsMatched.distinct (h : AccountsMatched s) : AccountsDistinct s := by
  intro pjId id id' a a' hl hl' ha ha'
  have hid := (h pjId id).mpr ⟨a, hl, ha⟩
  have hid' := (h pjId id').mpr ⟨a', hl', ha'⟩
  rw [hid] at hid'
  exact Option.some.inj hid'

/-- A removed PJSIP id is the one of the account that the command names. -/
theorem removed_claim {T T' : AccountTables} {acts : List ShimCall} {pjId : Int}
    (hc : AccountChange i s T acts T') (hmem : .pdAccRemove pjId ∈ acts) :
    ∃ id, namedAccount i s = some id ∧ T.owner id = some pjId := by
  have removed {id : String} {a : Account} (hl : T.accounts.lookup id = some a)
      (h : .pdAccRemove pjId ∈ removeOps a.pjsipAccId) : T.owner id = some pjId := by
    rw [owner_of_lookup hl]
    simpa [removeOps, eq_comm] using h
  cases hc with
  | still | upsert | secure | report => cases hmem
  | register hcmd hc =>
    cases hc with
    | nameless | unknown => cases hmem
    | @unusable id what a hkey hl hargs =>
      exact ⟨id, by simp [namedAccount, hcmd, hkey], removed hl hmem⟩
    | @refused id a args hkey hl hargs hneg =>
      exact ⟨id, by simp [namedAccount, hcmd, hkey], removed hl (by simpa using hmem)⟩
    | @started id a args hkey hl hargs hpos =>
      exact ⟨id, by simp [namedAccount, hcmd, hkey], removed hl (by simpa using hmem)⟩
  | @unregister p id a hcmd hkey hl =>
    exact ⟨id, by simp [namedAccount, hcmd, hkey], removed hl hmem⟩
  | @delete p id a hcmd hkey hl =>
    exact ⟨id, by simp [namedAccount, hcmd, hkey], removed hl hmem⟩
  | shutdown => simp at hmem

/-- Where the tables match, every input removes the PJSIP account of no other account. -/
theorem AccountsMatched.removesOwn (h : AccountsMatched s) (i : Input) : RemovesOwn s i := by
  intro pjId hmem id a hl ha
  obtain ⟨named, hnamed, howner⟩ := removed_claim (account_step i s) hmem
  have hfound : (foundTables i s).owner = (accountTables s).owner := by
    unfold foundTables
    split
    · exact AccountTables.owner_upsertTables _ _
    · rfl
  rw [hfound] at howner
  obtain ⟨b, hb, hpj⟩ := Option.bind_eq_some_iff.mp howner
  rw [hnamed, h.distinct pjId named id b a hb hl hpj ha]

end Matched

section Runs

variable {w w' : AccountWorld} {i : Input}

/-- A step is the step of the engine, with the accounts that live after it. -/
theorem accountStep_eq (hs : accountStep w i = some w') :
    liveAfter i.env w.live (i.accountActs w.engine) = some w'.live ∧
      engineStep w.engine i = some w'.engine := by
  obtain ⟨live, hlive, hmap⟩ := Option.bind_eq_some_iff.mp hs
  obtain ⟨s, hstep, rfl⟩ := Option.map_eq_some_iff.mp hmap
  exact ⟨hlive, hstep⟩

/-- What a step does to the account tables. -/
theorem accountStep_change (hs : accountStep w i = some w') :
    AccountChange i w.engine (foundTables i w.engine) (i.accountActs w.engine)
      (accountTables w'.engine) := by
  rw [engineStep_eq (accountStep_eq hs).2]
  exact account_step i w.engine

/-- Every step routes live accounts only. -/
theorem routesLive_step (h : (accountTables w.engine).RoutesLive w.live)
    (hs : accountStep w i = some w') : (accountTables w'.engine).RoutesLive w'.live :=
  routesLive_of_change (routesLive_foundTables h) (accountStep_eq hs).1 (accountStep_change hs)

/-- The step lemma: the tables stay paired just if no account is stranded. -/
theorem accountsPaired_step (h : AccountsPaired w) (hs : accountStep w i = some w') :
    AccountsPaired w' ↔ ¬ StrandsAccount w.engine i := by
  have hroutes := routesLive_step h.routesLive hs
  have hpaired : AccountsPaired w' ↔ (accountTables w'.engine).Paired :=
    ⟨fun h' ↦ h'.paired, fun h' ↦ ⟨h', hroutes⟩⟩
  rw [hpaired]
  by_cases hop : isShutdown i.op = true ∧ w.engine.initialized = true
  · have hshutdown : i.op = .shutdown := by
      have hop := hop.1
      unfold isShutdown at hop
      split at hop
      · assumption
      · cases hop
    have cleared := accounts_engineShutdown (i := i) (s := w.engine)
    have hs' : accountTables w'.engine = { accountTables w.engine with accMap := ∅ } := by
      have hrun : accountView.Yields i.op.run i.env w.engine fun _ _ T ↦
          T = { accountTables w.engine with accMap := ∅ } := by
        rw [hshutdown]
        refine View.yields_discard (View.Yields.imp cleared fun _ acts T hT ↦ ?_)
        rw [if_pos hop.2] at hT
        exact hT.2
      rw [engineStep_eq (accountStep_eq hs).2]
      exact hrun
    rw [hs', paired_cleared_iff]
    simp [StrandsAccount, hop, accountTables]
  · have hnot : ¬ StrandsAccount w.engine i := fun hstrands ↦ hop ⟨hstrands.1, hstrands.2.1⟩
    rw [iff_true_right hnot]
    exact paired_of_change hop (paired_foundTables h.paired) (routesLive_foundTables h.routesLive)
      (accountStep_eq hs).1 (accountStep_change hs)

/-- In every state of a run `PJSIP_ACC_MAP` and the account records match, no two accounts share a
PJSIP id and `pd_acc_remove` is called on no other account's, if and only if the run never shuts
the engine down while an account has a PJSIP id. -/
theorem accounts_matched_iff {is : List Input}
    (run : is.foldlM accountStep AccountWorld.initial = some w) :
    Path accountStep (fun u i ↦ ¬ StrandsAccount u.engine i) AccountWorld.initial is w ↔
      ∀ js u, js <+: is → js.foldlM accountStep AccountWorld.initial = some u →
        AccountsMatched u.engine ∧ AccountsDistinct u.engine ∧ ∀ i, RemovesOwn u.engine i := by
  have initial : AccountsPaired AccountWorld.initial :=
    { paired := ⟨fun _ _ h ↦ (by cases h), fun _ _ h ↦ (by cases h)⟩
      routesLive := fun _ _ h ↦ (by cases h) }
  rw [Path.iff_always initial (fun _ _ _ h hs ↦ accountsPaired_step h hs) run]
  constructor
  · intro always js u hjs hrun
    have matched := paired_iff_matched.mp (always js u hjs hrun).paired
    exact ⟨matched, matched.distinct, matched.removesOwn⟩
  · intro always js u hjs hrun
    have hroutes : (accountTables u.engine).RoutesLive u.live :=
      (Path.of_foldlM hrun).invariant initial.routesLive fun _ _ _ h _ hs ↦ routesLive_step h hs
    exact ⟨paired_iff_matched.mpr (always js u hjs hrun).1, hroutes⟩

/-- A registration, as an instance. -/
theorem accounts_matched_iff_signIn :
    ∃ w a, signIn.foldlM accountStep AccountWorld.initial = some w ∧
      w.engine.pjsipAccMap.lookup 0 = some "a" ∧ w.engine.accounts.lookup "a" = some a ∧
      a.pjsipAccId = some 0 := by
  have h : (signIn.foldlM (fun u i ↦ if ¬ StrandsAccount u.engine i then accountStep u i else none)
      AccountWorld.initial).map (fun w ↦ w.engine.pjsipAccMap.lookup 0) = some (some "a") := by
    decide
  obtain ⟨w, hw, hmap⟩ := Option.map_eq_some_iff.mp h
  have path : Path accountStep (fun u i ↦ ¬ StrandsAccount u.engine i) AccountWorld.initial _ w :=
    Path.of_guarded hw
  have run := path.foldlM_eq
  have matched := ((accounts_matched_iff run).mp path _ w List.prefix_rfl run).1
  obtain ⟨a, hl, ha⟩ := (matched 0 "a").mp hmap
  exact ⟨w, a, run, hmap, hl, ha⟩

/-- A shutdown after a registration, and the registration of another account in a new session. -/
def signInAgain : List Input :=
  [⟨.shutdown, quietEnv⟩, ⟨.init .null, quietEnv⟩,
    ⟨.register (.text "b") (.text "v") (.text "p") (.text "d"), quietEnv⟩]

/-- After a shutdown another account gets the PJSIP id that the first still has. -/
theorem shutdown_shares_id :
    ∃ w, (signIn ++ signInAgain).foldlM accountStep AccountWorld.initial = some w ∧
      w.engine.pjsipAccMap.lookup 0 = some "b" ∧
      (w.engine.accounts.lookup "a").map (·.pjsipAccId) = some (some 0) ∧
      (w.engine.accounts.lookup "b").map (·.pjsipAccId) = some (some 0) := by
  have h : ((signIn ++ signInAgain).foldlM accountStep AccountWorld.initial).map (fun w ↦
      (w.engine.pjsipAccMap.lookup 0, (w.engine.accounts.lookup "a").map (·.pjsipAccId),
        (w.engine.accounts.lookup "b").map (·.pjsipAccId))) =
      some (some "b", some (some 0), some (some 0)) := by decide
  obtain ⟨w, hw, hv⟩ := Option.map_eq_some_iff.mp h
  obtain ⟨hmap, hrest⟩ := Prod.mk.inj hv
  obtain ⟨ha, hb⟩ := Prod.mk.inj hrest
  exact ⟨w, hw, hmap, ha, hb⟩

end Runs

end PacketDial.System
