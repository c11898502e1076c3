import PacketDial.Lib.Slots
import PacketDial.System.SettingSpec

/-!
# Subscriptions to the presence of contacts

`pd_blf_subscribe` adds a buddy for every URI, and `pd_blf_unsubscribe` deletes the buddies that
`pjsua_enum_buddies` writes into an array of `PJSUA_ACC_MAX_PROXIES` ids
(`core_rust/src/shim/pjsip_shim.c:1902–1951`). PJSUA keeps buddies in slots
(`pjsip/src/pjsua-lib/pjsua_pres.c:195–216`, `382–537`), of which there are enough here.
-/

namespace PacketDial.Shim

open PacketDial.Core PacketDial.Lib PacketDial.System

/-- `PJSUA_ACC_MAX_PROXIES` (`pjsip/include/pjsua-lib/pjsua.h:320`). -/
def maxProxies : Nat := 8

/-- The URIs of the buddies of PJSUA, by slot. -/
abbrev BuddySlots := List (Option String)

/-- `pd_blf_subscribe` (`pjsip_shim.c:1902–1931`). -/
def pdBlfSubscribe (uris : List String) (slots : BuddySlots) : Int × BuddySlots :=
  if uris = [] then (-1, slots) else (0, uris.foldl (fun slots uri ↦ Slots.add uri slots) slots)

/-- `pd_blf_unsubscribe` (`pjsip_shim.c:1933–1951`). -/
def pdBlfUnsubscribe (slots : BuddySlots) : Int × BuddySlots :=
  (0, (Slots.enumerate 0 maxProxies slots).foldl Slots.del slots)

/-- The buddies after a call of the shim; a shutdown destroys PJSUA. -/
def buddiesAfter (slots : BuddySlots) : ShimCall → BuddySlots
  | .pdBlfSubscribe _ uris => (pdBlfSubscribe uris slots).2
  | .pdBlfUnsubscribe _ => (pdBlfUnsubscribe slots).2
  | .pdShutdown => []
  | _ => slots

/-- Surroundings in which the shim answers as it does about buddies. -/
def withBuddies (e : Env) : Env where
  clock := e.clock
  rc call := match call with
    | .pdBlfSubscribe _ uris => (pdBlfSubscribe uris []).1
    | .pdBlfUnsubscribe _ => (pdBlfUnsubscribe []).1
    | _ => e.rc call
  outText := e.outText
  outInts := e.outInts
  outStream := e.outStream
  outDevices := e.outDevices
  fileSize := e.fileSize
  pathExtension := e.pathExtension
  parseJson := e.parseJson
  alive := e.alive
  callOrder := e.callOrder
  accountOrder := e.accountOrder

/-- The engine and the buddies of PJSUA. -/
structure BlfDesk where
  engine : Engine
  buddies : BuddySlots

/-- Before the first operation there are no buddies. -/
def BlfDesk.initial : BlfDesk := ⟨Engine.initial, []⟩

/-- A command on subscriptions with what its run gets from outside, or any other input. -/
inductive BlfMove where
  | subscribe (p : Json) (e : Env)
  | unsubscribe (p : Json) (e : Env)
  | other (i : Input)

namespace BlfMove

/-- The code of a move, and the code that a command returns. -/
def run : BlfMove → Eng (Option EngineErrorCode)
  | .subscribe p _ => some <$> cmdBlfSubscribe p
  | .unsubscribe p _ => some <$> cmdBlfUnsubscribe p
  | .other i => (fun _ ↦ none) <$> i.op.run

/-- What the run of a move gets from outside. -/
def env : BlfMove → Env
  | .subscribe _ e => e
  | .unsubscribe _ e => e
  | .other i => i.env

/-- The run of a move. -/
def outcome (m : BlfMove) (w : BlfDesk) : Outcome Engine Action (Option EngineErrorCode) :=
  m.run.run (withBuddies m.env) w.engine

end BlfMove

/-- The call of the shim in an action. -/
def shimAct : Action → Option ShimCall
  | .shim call => some call
  | _ => none

/-- The view of a run that shows the accounts and the calls of the shim. -/
def shimView : View Engine Action (AList fun _ : String ↦ Account) ShimCall :=
  ⟨Engine.accounts, shimAct⟩

/-- The engine and the buddies after a move. -/
def BlfMove.after (m : BlfMove) (w : BlfDesk) : BlfDesk where
  engine := (m.outcome w).state
  buddies := (shimView.trace (m.outcome w).trace).foldl buddiesAfter w.buddies

/-- One step: a move that comes to its end. -/
def blfStep (w : BlfDesk) (m : BlfMove) : Option BlfDesk :=
  if completes (m.outcome w).trace then some (m.after w) else none

/-- The URIs of the buddies. -/
def BlfDesk.uris (w : BlfDesk) : List String := Slots.values w.buddies

/-- The account has a PJSIP id. -/
def BlfDesk.HasId (w : BlfDesk) (accountId : String) : Prop :=
  (pjsipAccIdOf w.engine.accounts accountId).isSome = true

/-- An unsubscription that succeeds leaves no buddy. -/
def Clears (m : BlfMove) (w : BlfDesk) : Prop :=
  ∀ p e, m = .unsubscribe p e → (m.outcome w).value = some .ok → (m.after w).uris = []

/-- The buddies can be enumerated, and the account is one that the shim is called for. -/
def BlfDesk.Clearable (w : BlfDesk) (accountId : String) : Prop :=
  w.uris = [] ∨ (w.HasId accountId ∧ w.uris.length ≤ maxProxies)

/-- A resync: an unsubscription that succeeds leaves no buddy, and the subscription after it leaves
one for each of the URIs and no other. -/
structure Resyncs (unsubscription subscription : BlfMove) (uris : List String) (w : BlfDesk) :
    Prop where
  clears : Clears unsubscription w
  exact : ∀ uri, (subscription.after (unsubscription.after w)).uris.count uri =
    if uri ∈ uris then 1 else 0

instance (w : BlfDesk) (accountId : String) : Decidable (w.HasId accountId) :=
  inferInstanceAs (Decidable (_ = true))

instance (w : BlfDesk) (accountId : String) : Decidable (w.Clearable accountId) :=
  inferInstanceAs (Decidable (_ ∨ _))

section Buddies

variable {slots : BuddySlots}

/-- The buddies that an unsubscription leaves. -/
theorem values_pdBlfUnsubscribe :
    Slots.values (pdBlfUnsubscribe slots).2 = (Slots.values slots).drop maxProxies := by
  rw [pdBlfUnsubscribe, Slots.foldl_del_enumerate, Slots.values_free]

/-- The buddies that a subscription leaves. -/
theorem values_pdBlfSubscribe (uris : List String) :
    (Slots.values (pdBlfSubscribe uris slots).2).Perm (uris ++ Slots.values slots) := by
  unfold pdBlfSubscribe
  split
  · next h =>
    rw [h]
    exact .refl _
  · exact Slots.values_foldl_add uris slots

end Buddies

section Commands

variable {α β : Type} {e : Env} {s : Engine} {p : Json} {accountId : String}
  {R : β → List ShimCall → (AList fun _ : String ↦ Account) → Prop}

/-- A program that leaves the shim and the accounts alone drops out. -/
theorem shims_free_bind {held : List Mutex} {x : Eng α} (hfree : ShimFree x)
    (hsteady : Traced.Admits (Steady held) x) {f : α → Eng β}
    (h : ∀ a s₁, s₁.accounts = s.accounts → shimView.Yields (f a) e s₁ R) :
    shimView.Yields (x >>= f) e s R := by
  have ht : shimView.trace (x.run e s).trace = [] := by
    rw [View.trace, List.filterMap_eq_nil_iff]
    intro act hact
    have hnot := hfree.run e s act hact
    cases act with
    | shim => cases hnot
    | _ => rfl
  have haccounts := congrArg AccountTables.accounts (hsteady.run e s).1
  exact View.yields_bind rfl rfl ht (h _ _ haccounts)

/-- A log entry that comes first drops out. -/
theorem shims_logEngine_bind {level : LogLevel} {message : String} {f : Unit → Eng β}
    (h : ∀ s₁, s₁.accounts = s.accounts → shimView.Yields (f ()) e s₁ R) :
    shimView.Yields (logEngine level message >>= f) e s R := by
  have steady : Traced.Admits (Steady []) (logEngine level message) :=
    tame_logEngine canLog_nil level message
  exact shims_free_bind (shimFree_logEngine level message) steady fun _ ↦ h

/-- An event that comes last leaves the code that is returned. -/
theorem shims_pushEvent {type : String} (htype : IsPlain type) (payload : Json)
    (rc : EngineErrorCode) : shimView.Yields (pushEvent type payload >>= fun _ ↦ pure rc) e s
      fun rc' acts accounts ↦ rc' = rc ∧ acts = [] ∧ accounts = s.accounts := by
  have steady : Traced.Admits (Steady []) (pushEvent type payload) :=
    tame_pushEvent canLog_nil.2 htype payload
  exact shims_free_bind (shimFree_pushEvent type payload) steady fun _ s₁ hs₁ ↦
    View.yields_pure ⟨rfl, rfl, hs₁⟩

/-- A call of the shim. -/
theorem shims_shim_bind {call : ShimCall} {f : Int → Eng β}
    (h : shimView.Yields (f (e.rc call)) e s fun b acts ↦ R b (call :: acts)) :
    shimView.Yields (shim call >>= f) e s R := by
  have ht : shimView.trace ((shim call).run e s).trace = [call] := rfl
  exact View.yields_bind rfl rfl ht h

/-- A setter of one account calls the shim if the account has a PJSIP id. -/
theorem shims_accountSetter {call : Int → ShimCall} {failLog : Option String}
    {failure : EngineErrorCode} {type : String} {payload : List (String × Json)}
    (htype : IsPlain type) :
    shimView.Yields (accountSetter accountId (fun id ↦ some (call id)) failLog failure type
      payload) e s fun rc acts accounts ↦
        acts = ((pjsipAccIdOf s.accounts accountId).map call).toList ∧ accounts = s.accounts ∧
        ((∀ id, e.rc (call id) = 0) → rc = .ok) := by
  have lookup : shimView.Yields (accountPjsipId accountId) e s fun id acts accounts ↦
      id = pjsipAccIdOf s.accounts accountId ∧ acts = [] ∧ accounts = s.accounts := ⟨rfl, rfl, rfl⟩
  unfold accountSetter
  refine View.Yields.bind lookup ?_
  rintro _ acts s₁ ⟨rfl, rfl, hs₁⟩
  rw [← show s₁.accounts = s.accounts from hs₁]
  cases pjsipAccIdOf s₁.accounts accountId with
  | none =>
    refine (shims_pushEvent htype _ _).imp ?_
    rintro rc acts accounts ⟨rfl, rfl, rfl⟩
    exact ⟨rfl, rfl, fun _ ↦ rfl⟩
  | some id =>
    unfold runSetter
    refine shims_shim_bind ?_
    dsimp only
    by_cases hrc : e.rc (call id) = 0
    · rw [if_neg (not_not_intro hrc)]
      refine (shims_pushEvent htype _ _).imp ?_
      rintro rc acts accounts ⟨rfl, rfl, rfl⟩
      exact ⟨rfl, rfl, fun _ ↦ rfl⟩
    · rw [if_pos hrc]
      have failed {rc : EngineErrorCode} : (∀ id, e.rc (call id) = 0) → rc = .ok :=
        fun hall ↦ absurd (hall id) hrc
      cases failLog with
      | none => exact View.yields_pure ⟨rfl, rfl, failed⟩
      | some what =>
        refine shims_logEngine_bind fun s₂ hs₂ ↦ ?_
        exact View.yields_pure ⟨rfl, hs₂, failed⟩

/-- What `BlfUnsubscribe` does for an account. -/
theorem shims_cmdBlfUnsubscribe (hp : (p.get "account_id").asStr = some accountId) :
    shimView.Yields (cmdBlfUnsubscribe p) (withBuddies e) s fun rc acts accounts ↦
      acts = ((pjsipAccIdOf s.accounts accountId).map .pdBlfUnsubscribe).toList ∧
        accounts = s.accounts ∧ rc = .ok := by
  unfold cmdBlfUnsubscribe
  rw [hp]
  refine shims_logEngine_bind fun s₁ hs₁ ↦ ?_
  rw [← hs₁]
  refine (shims_accountSetter (by decide)).imp ?_
  rintro rc acts accounts ⟨hacts, haccounts, hrc⟩
  exact ⟨hacts, haccounts, hrc fun _ ↦ rfl⟩

/-- Without an account `BlfUnsubscribe` fails. -/
theorem shims_cmdBlfUnsubscribe_none (hp : (p.get "account_id").asStr = none) :
    ((cmdBlfUnsubscribe p).run e s).value = .invalidJson := by
  unfold cmdBlfUnsubscribe
  rw [hp]
  rfl

/-- What `BlfSubscribe` does for an account. -/
theorem shims_cmdBlfSubscribe {uris : List String} {items : List Json}
    (hp : (p.get "account_id").asStr = some accountId)
    (hitems : (p.get "uris").asArray = some items) (huris : items.filterMap Json.asStr = uris) :
    shimView.Yields (cmdBlfSubscribe p) e s fun _ acts _ ↦
      acts = if uris = [] then []
        else ((pjsipAccIdOf s.accounts accountId).map fun id ↦
          .pdBlfSubscribe id (uris.filterMap cString)).toList := by
  unfold cmdBlfSubscribe
  rw [hp, hitems]
  dsimp only
  rw [huris]
  by_cases hnil : uris = []
  · rw [if_pos hnil, if_pos hnil]
    exact View.yields_pure rfl
  · rw [if_neg hnil, if_neg hnil]
    refine shims_logEngine_bind fun s₁ hs₁ ↦ ?_
    rw [← hs₁]
    exact (shims_accountSetter (by decide)).imp fun _ _ _ h ↦ h.1

end Commands

section Resync

variable {w : BlfDesk} {p q : Json} {e e' : Env} {accountId : String} {uris : List String}

/-- The accounts and the buddies after `BlfUnsubscribe`. -/
theorem after_unsubscribe (hp : (p.get "account_id").asStr = some accountId) :
    ((BlfMove.unsubscribe p e).outcome w).value = some .ok ∧
      ((BlfMove.unsubscribe p e).after w).engine.accounts = w.engine.accounts ∧
      ((BlfMove.unsubscribe p e).after w).uris =
        if w.HasId accountId then w.uris.drop maxProxies else w.uris := by
  have hrun : shimView.Yields (BlfMove.unsubscribe p e).run (withBuddies e) w.engine
      fun rc acts accounts ↦
        acts = ((pjsipAccIdOf w.engine.accounts accountId).map .pdBlfUnsubscribe).toList ∧
          accounts = w.engine.accounts ∧ rc = some .ok := by
    refine View.yields_map ((shims_cmdBlfUnsubscribe hp).imp ?_)
    rintro rc acts accounts ⟨hacts, haccounts, rfl⟩
    exact ⟨hacts, haccounts, rfl⟩
  have htrace : shimView.trace ((BlfMove.unsubscribe p e).outcome w).trace =
      ((pjsipAccIdOf w.engine.accounts accountId).map .pdBlfUnsubscribe).toList := hrun.1
  refine ⟨hrun.2.2, hrun.2.1, ?_⟩
  unfold BlfDesk.uris BlfMove.after
  rw [htrace]
  by_cases hid : w.HasId accountId
  · obtain ⟨id, hpj⟩ := Option.isSome_iff_exists.mp hid
    rw [if_pos hid, hpj]
    exact values_pdBlfUnsubscribe
  · rw [if_neg hid, Option.not_isSome_iff_eq_none.mp hid]
    rfl

/-- The buddies after `BlfSubscribe`. -/
theorem after_subscribe {items : List Json} (hq : (q.get "account_id").asStr = some accountId)
    (hitems : (q.get "uris").asArray = some items) (huris : items.filterMap Json.asStr = uris) :
    ((BlfMove.subscribe q e).after w).uris.Perm
      (if w.HasId accountId then uris.filterMap cString ++ w.uris else w.uris) := by
  have hrun : shimView.Yields (BlfMove.subscribe q e).run (withBuddies e) w.engine
      fun _ acts _ ↦ acts = if uris = [] then []
        else ((pjsipAccIdOf w.engine.accounts accountId).map fun id ↦
          .pdBlfSubscribe id (uris.filterMap cString)).toList :=
    View.yields_map (shims_cmdBlfSubscribe hq hitems huris)
  have htrace : shimView.trace ((BlfMove.subscribe q e).outcome w).trace = if uris = [] then []
      else ((pjsipAccIdOf w.engine.accounts accountId).map fun id ↦
        .pdBlfSubscribe id (uris.filterMap cString)).toList := hrun
  unfold BlfDesk.uris BlfMove.after
  rw [htrace]
  by_cases hid : w.HasId accountId
  · obtain ⟨id, hpj⟩ := Option.isSome_iff_exists.mp hid
    rw [if_pos hid, hpj]
    by_cases hnil : uris = []
    · rw [if_pos hnil, hnil]
      exact .refl _
    · rw [if_neg hnil]
      exact values_pdBlfSubscribe _
  · rw [if_neg hid, Option.not_isSome_iff_eq_none.mp hid]
    split <;> exact .refl _

/-- An unsubscription leaves no buddy just if the buddies can be enumerated. -/
theorem clears_iff (hp : (p.get "account_id").asStr = some accountId) :
    Clears (.unsubscribe p e) w ↔ w.Clearable accountId := by
  obtain ⟨hok, -, huris⟩ := after_unsubscribe (w := w) (e := e) hp
  have hclears : Clears (.unsubscribe p e) w ↔ ((BlfMove.unsubscribe p e).after w).uris = [] := by
    constructor
    · exact fun h ↦ h p e rfl hok
    · rintro h p' e' heq -
      exact h
  rw [hclears, huris, BlfDesk.Clearable]
  by_cases hid : w.HasId accountId
  · rw [if_pos hid, List.drop_eq_nil_iff]
    constructor
    · exact fun h ↦ Or.inr ⟨hid, h⟩
    · rintro (h | ⟨-, h⟩)
      · simp [h]
      · exact h
  · simp [hid]

/-- Texts without a NUL are those that all convert. -/
theorem filterMap_cString_eq_iff :
    (uris.filterMap cString).length = uris.length ↔ ∀ uri ∈ uris, '\x00' ∉ uri.toList := by
  rw [List.filterMap_length_eq_length]
  refine forall₂_congr fun uri _ ↦ ?_
  unfold cString
  split <;> simpa

/-- Texts that all convert are converted to themselves. -/
theorem filterMap_cString_of_forall (h : ∀ uri ∈ uris, '\x00' ∉ uri.toList) :
    uris.filterMap cString = uris := by
  have hsome : ∀ uri ∈ uris, cString uri = some uri := fun uri huri ↦ if_neg (h uri huri)
  rw [List.filterMap_congr hsome, List.filterMap_some]

/-- What a resync leaves. -/
theorem resynced_uris {items : List Json} (hp : (p.get "account_id").asStr = some accountId)
    (hq : (q.get "account_id").asStr = some accountId)
    (hitems : (q.get "uris").asArray = some items)
    (huris : items.filterMap Json.asStr = uris) (hclear : w.Clearable accountId) :
    ((BlfMove.subscribe q e').after ((BlfMove.unsubscribe p e).after w)).uris.Perm
      (if w.HasId accountId then uris.filterMap cString else []) := by
  obtain ⟨-, haccounts, hleft⟩ := after_unsubscribe (w := w) (e := e) hp
  have hnone : ((BlfMove.unsubscribe p e).after w).uris = [] := by
    rw [hleft]
    by_cases hid : w.HasId accountId
    · rw [if_pos hid, List.drop_eq_nil_iff]
      rcases hclear with h | ⟨-, h⟩
      · simp [h]
      · exact h
    · rw [if_neg hid]
      exact hclear.resolve_right fun h ↦ hid h.1
  have hid : ((BlfMove.unsubscribe p e).after w).HasId accountId ↔ w.HasId accountId := by
    unfold BlfDesk.HasId
    rw [haccounts]
  have hafter := after_subscribe (w := (BlfMove.unsubscribe p e).after w) (e := e') hq hitems huris
  rw [hnone, List.append_nil] at hafter
  simpa only [hid] using hafter

/-- A resync is exact just if the buddies can be enumerated and the URIs get to the shim. -/
theorem resyncs_iff {items : List Json} (hp : (p.get "account_id").asStr = some accountId)
    (hq : (q.get "account_id").asStr = some accountId)
    (hitems : (q.get "uris").asArray = some items)
    (huris : items.filterMap Json.asStr = uris) (hnodup : uris.Nodup) :
    Resyncs (.unsubscribe p e) (.subscribe q e') uris w ↔ w.Clearable accountId ∧
      (uris = [] ∨ (w.HasId accountId ∧ ∀ uri ∈ uris, '\x00' ∉ uri.toList)) := by
  have hexact : (∀ uri, ((BlfMove.subscribe q e').after
      ((BlfMove.unsubscribe p e).after w)).uris.count uri = if uri ∈ uris then 1 else 0) ↔
      ((BlfMove.subscribe q e').after ((BlfMove.unsubscribe p e).after w)).uris.Perm uris := by
    rw [List.perm_iff_count]
    exact forall_congr' fun uri ↦ by rw [hnodup.count]
  have hresyncs : Resyncs (.unsubscribe p e) (.subscribe q e') uris w ↔ w.Clearable accountId ∧
      ((BlfMove.subscribe q e').after ((BlfMove.unsubscribe p e).after w)).uris.Perm uris := by
    rw [← clears_iff (e := e) hp, ← hexact]
    exact ⟨fun h ↦ ⟨h.clears, h.exact⟩, fun h ↦ ⟨h.1, h.2⟩⟩
  rw [hresyncs]
  refine and_congr_right fun hclear ↦ ?_
  rw [(resynced_uris hp hq hitems huris hclear).congr_left]
  by_cases hid : w.HasId accountId
  · rw [if_pos hid]
    constructor
    · intro hperm
      exact Or.inr ⟨hid, filterMap_cString_eq_iff.mp hperm.length_eq⟩
    · rintro (hnil | ⟨-, hnul⟩)
      · rw [hnil]
        exact .refl _
      · rw [filterMap_cString_of_forall hnul]
  · rw [if_neg hid, List.nil_perm]
    simp [hid]

/-- In every run the unsubscriptions that succeed leave no buddy if and only if each finds no
buddies, or at most `PJSUA_ACC_MAX_PROXIES` of them and an account with a PJSIP id; and a resync of
a state that is reached is exact if and only if this holds of it and the URIs, where there are any,
get to the shim. -/
theorem blf_resync_exact_iff {moves : List BlfMove}
    (run : moves.foldlM blfStep BlfDesk.initial = some w) :
    (Path blfStep (fun u m ↦ ∀ p e accountId, m = .unsubscribe p e →
        (p.get "account_id").asStr = some accountId → u.Clearable accountId)
        BlfDesk.initial moves w ↔
      ∀ js m u, js ++ [m] <+: moves → js.foldlM blfStep BlfDesk.initial = some u → Clears m u) ∧
    ∀ (p q : Json) (e e' : Env) (accountId : String) (items : List Json) (uris : List String),
      (p.get "account_id").asStr = some accountId → (q.get "account_id").asStr = some accountId →
      (q.get "uris").asArray = some items → items.filterMap Json.asStr = uris → uris.Nodup →
      (Resyncs (.unsubscribe p e) (.subscribe q e') uris w ↔ w.Clearable accountId ∧
        (uris = [] ∨ (w.HasId accountId ∧ ∀ uri ∈ uris, '\x00' ∉ uri.toList))) := by
  have each (m : BlfMove) (u : BlfDesk) : (∀ p e accountId, m = .unsubscribe p e →
      (p.get "account_id").asStr = some accountId → u.Clearable accountId) ↔ Clears m u := by
    constructor
    · rintro h p e rfl hok
      cases hp : (p.get "account_id").asStr with
      | none =>
        have hfail : ((BlfMove.unsubscribe p e).outcome u).value = some .invalidJson := by
          rw [BlfMove.outcome, BlfMove.run, Traced.run_map]
          exact congrArg some (shims_cmdBlfUnsubscribe_none hp)
        rw [hfail] at hok
        cases hok
      | some accountId => exact (clears_iff hp).mpr (h p e accountId rfl hp) p e rfl hok
    · rintro h p e accountId rfl hp
      exact (clears_iff hp).mp h
  constructor
  · rw [Path.iff_forall run]
    simp only [each]
  · intro p q e e' accountId items uris hp hq hitems huris hnodup
    exact resyncs_iff hp hq hitems huris hnodup

/-- The engine is initialised, and an account gets the PJSIP id 0. -/
def blfSignIn : List BlfMove := signIn.map .other

/-- A subscription of that account. -/
def subscribes (uris : List String) : BlfMove :=
  .subscribe (.obj [("account_id", .str "a"), ("uris", .arr (uris.map .str))]) quietEnv

/-- An unsubscription of that account. -/
def unsubscribes : BlfMove := .unsubscribe (.obj [("account_id", .str "a")]) quietEnv

/-- The URIs of eight contacts. -/
def eightUris : List String :=
  ["sip:1", "sip:2", "sip:3", "sip:4", "sip:5", "sip:6", "sip:7", "sip:8"]

/-- Eight contacts, as an instance. -/
theorem blf_resync_exact_iff_eight :
    ∃ w, (blfSignIn ++ [subscribes eightUris]).foldlM blfStep BlfDesk.initial = some w ∧
      Resyncs unsubscribes (subscribes ["sip:1", "sip:9"]) ["sip:1", "sip:9"] w := by
  have h : ((blfSignIn ++ [subscribes eightUris]).foldlM blfStep BlfDesk.initial).map (fun w ↦
      (decide (w.Clearable "a"), decide (w.HasId "a"))) = some (true, true) := by decide
  obtain ⟨w, run, hw⟩ := Option.map_eq_some_iff.mp h
  obtain ⟨hclear, hid⟩ := Prod.mk.inj hw
  refine ⟨w, run, ((blf_resync_exact_iff run).2 _ _ _ _ "a" [.str "sip:1", .str "sip:9"] _
    (by decide) (by decide) (by rfl) (by rfl) (by decide)).mpr ?_⟩
  exact ⟨of_decide_eq_true hclear, Or.inr ⟨of_decide_eq_true hid, by decide⟩⟩

/-- Of nine buddies an unsubscription leaves one, which is subscribed to once more. -/
theorem ninth_buddy_stays :
    ∃ w, (blfSignIn ++ [subscribes (eightUris ++ ["sip:9"])]).foldlM blfStep
        BlfDesk.initial = some w ∧
      (unsubscribes.outcome w).value = some .ok ∧ (unsubscribes.after w).uris = ["sip:9"] ∧
      ((subscribes ["sip:1", "sip:9"]).after (unsubscribes.after w)).uris =
        ["sip:1", "sip:9", "sip:9"] ∧
      ¬ Resyncs unsubscribes (subscribes ["sip:1", "sip:9"]) ["sip:1", "sip:9"] w := by
  have h : ((blfSignIn ++ [subscribes (eightUris ++ ["sip:9"])]).foldlM blfStep
      BlfDesk.initial).map (fun w ↦ ((unsubscribes.outcome w).value, (unsubscribes.after w).uris,
        ((subscribes ["sip:1", "sip:9"]).after (unsubscribes.after w)).uris)) =
      some (some .ok, ["sip:9"], ["sip:1", "sip:9", "sip:9"]) := by decide
  obtain ⟨w, run, hw⟩ := Option.map_eq_some_iff.mp h
  simp only [Prod.mk.injEq] at hw
  obtain ⟨hok, hleft, hafter⟩ := hw
  refine ⟨w, run, hok, hleft, hafter, fun hresync ↦ ?_⟩
  have hnone := hresync.clears _ _ rfl hok
  rw [hleft] at hnone
  cases hnone

end Resync

end PacketDial.Shim
