import PacketDial.System.AccountMap
import PacketDial.System.RegistrationRace

/-!
# Account commands next to each other

Any number of `AccountRegister`, `AccountUnregister` and `AccountDeleteProfile` commands for one
account. Each takes the PJSIP id out of the account, removes it, and stores and maps a new one in
critical sections of their own, so two registrations may both add a PJSIP account and one may store
its id in an account that another has deleted.
-/

namespace PacketDial.System

open PacketDial.Core PacketDial.Lib

/-- A command on the PJSIP account of an account. -/
inductive AccountCommand where
  | register (p : Json)
  | unregister (p : Json)
  | deleteProfile (p : Json)

/-- The steps of the command. -/
def AccountCommand.strand : AccountCommand → AccountStrand EngineErrorCode
  | .register p => registerStrand p
  | .unregister p => unregisterStrand p
  | .deleteProfile p => deleteProfileStrand p

/-- The command is for the account `id`. -/
def AccountCommand.For (id : String) : AccountCommand → Prop
  | .register p | .unregister p => accountKey p = some id
  | .deleteProfile p => (p.get "uuid").asStr = some id

/-- Commands that run next to each other, and the PJSIP accounts that live for their account. -/
structure AccountPool (ι : Type) where
  pool : Pool ι Env Engine Action AccountMark
  live : List Int

/-- A step of a command under PJSIP's promise: `pd_acc_add` returns no id that is live. -/
def AccountPool.step {ι : Type} [DecidableEq ι] (c : AccountPool ι) (m : ι × Env) :
    Option (AccountPool ι) :=
  (c.pool.step m).bind fun pool ↦
    let acts := accountView.trace (pool.trace.drop c.pool.trace.length)
    (liveAfter m.2 c.live acts).map fun live ↦ ⟨pool, live⟩

/-- Commands in front of their first step. -/
def commandPool {ι : Type} (s : Engine) (live : List Int) (commands : ι → AccountCommand) :
    AccountPool ι where
  pool :=
    { state := s
      strands := fun i ↦ discard (commands i).strand
      log := []
      trace := [] }
  live := live

/-- The PJSIP id that the account `id` has. -/
def ownedBy (id : String) (s : Engine) : Option Int := (accountTables s).owner id

/-- A PJSIP account lives for the account `id` just if the account has its id, and so does
`PJSIP_ACC_MAP`. -/
def Tidy (id : String) (live : List Int) (s : Engine) : Prop :=
  ∀ pjId, (pjId ∈ live ↔ ownedBy id s = some pjId) ∧
    (s.pjsipAccMap.lookup pjId = some id ↔ ownedBy id s = some pjId)

/-- If the step stores a PJSIP id, the account is there and has none. -/
def StoresFree {ι : Type} [DecidableEq ι] (id : String) (c : AccountPool ι) (m : ι × Env) : Prop :=
  ∀ c' pjId, c.step m = some c' → c'.pool.log = c.pool.log ++ [(m.1, .stored pjId)] →
    ∃ a, c.pool.state.accounts.lookup id = some a ∧ a.pjsipAccId = none

/-- The account got a PJSIP id, or lost it. -/
def ownerMark {ι : Type} (pjId : Int) : ι × AccountMark → Option Bool
  | (_, .stored pjId') => if pjId' = pjId then some true else none
  | (_, .took (some pjId')) => if pjId' = pjId then some false else none
  | _ => none

/-- `PJSIP_ACC_MAP` got a PJSIP id, or lost it. -/
def routeMark {ι : Type} (pjId : Int) : ι × AccountMark → Option Bool
  | (_, .mapped pjId') => if pjId' = pjId then some true else none
  | (_, .unmapped pjId') => if pjId' = pjId then some false else none
  | _ => none

/-- Of each PJSIP id, the last change of `PJSIP_ACC_MAP` is the same as the last change of the
account: both got it, or both lost it. -/
def RoutesFollow {ι : Type} (log : List (ι × AccountMark)) : Prop :=
  ∀ pjId, latest (routeMark pjId) log = latest (ownerMark pjId) log

/-- What a command has in its hands between two of its steps. -/
inductive Holding where
  | nothing
  /-- It has taken the id and removes the PJSIP account next. -/
  | removing (pjId : Int)
  /-- It has removed the PJSIP account and takes the id out of `PJSIP_ACC_MAP` next. -/
  | unmapping (pjId : Int)
  /-- It has added the PJSIP account and stores the id next. -/
  | storing (pjId : Int)
  /-- It has stored the id and enters it in `PJSIP_ACC_MAP` next. -/
  | mapping (pjId : Int)

/-- The live PJSIP account that nobody else knows of. -/
def Holding.held : Holding → Option Int
  | .removing pjId | .storing pjId => some pjId
  | _ => none

/-- What a command has taken. -/
def Holding.ofTaken : Option Int → Holding
  | some pjId => .removing pjId
  | none => .nothing

section Protocol

variable {id : String} {α β : Type}

/-- The run leaves the PJSIP id of the account and `PJSIP_ACC_MAP` alone. -/
structure KeepsOwner (id : String) (s : Engine) (t : List Action) (s' : Engine) : Prop where
  owner : ownedBy id s' = ownedBy id s
  map : s'.pjsipAccMap = s.pjsipAccMap
  acts : accountView.trace t = []

/-- The run takes the PJSIP id out of the account, and may delete the account. -/
structure TakesOwner (id : String) (s : Engine) (t : List Action) (s' : Engine) : Prop where
  owner : ownedBy id s' = none
  map : s'.pjsipAccMap = s.pjsipAccMap
  acts : accountView.trace t = []

/-- The steps of a command for the account `id`, by what it has in its hands. -/
inductive Follows (id : String) : Holding → AccountStrand α → Prop
  | done (a : α) : Follows id .nothing (.done a)
  | plain {β : Type} {x : Eng β} {k : β → AccountStrand α}
      (hx : ∀ e s, KeepsOwner id s (x.run e s).trace (x.run e s).state)
      (hk : ∀ b, Follows id .nothing (k b)) : Follows id .nothing (.step (fun _ ↦ none) x k)
  | take {β : Type} (taken : β → Option Int) {P : β → Prop} {x : Eng β} {k : β → AccountStrand α}
      (hx : ∀ e s, TakesOwner id s (x.run e s).trace (x.run e s).state)
      (htaken : ∀ e s, taken (x.run e s).value = ownedBy id s) (hP : ∀ e s, P (x.run e s).value)
      (hk : ∀ b, P b → Follows id (.ofTaken (taken b)) (k b)) :
      Follows id .nothing (.step (fun b ↦ some (.took (taken b))) x k)
  | remove (pjId : Int) {k : Unit → AccountStrand α}
      (hk : ∀ b, Follows id (.unmapping pjId) (k b)) : Follows id (.removing pjId)
        (.step (fun _ ↦ some (.removed pjId)) (discard <| shim (.pdAccRemove pjId)) k)
  | unmap (pjId : Int) {k : Unit → AccountStrand α} (hk : ∀ b, Follows id .nothing (k b)) :
      Follows id (.unmapping pjId) (.step (fun _ ↦ some (.unmapped pjId))
        (withLock .pjsipAccMap (removePjsipAcc pjId)) k)
  | add (args : AccAddArgs) {k : Int → AccountStrand α}
      (hk : ∀ rc, Follows id (if rc < 0 then .nothing else .storing rc) (k rc)) :
      Follows id .nothing (.step (fun rc ↦ if rc < 0 then none else some (.added rc))
        (shim (.pdAccAdd args)) k)
  | store (pjId : Int) {k : Unit → AccountStrand α}
      (hk : ∀ b, Follows id (.mapping pjId) (k b)) : Follows id (.storing pjId)
        (.step (fun _ ↦ some (.stored pjId)) (storePjsipAccId id pjId) k)
  | map (pjId : Int) {k : Unit → AccountStrand α} (hk : ∀ b, Follows id .nothing (k b)) :
      Follows id (.mapping pjId) (.step (fun _ ↦ some (.mapped pjId))
        (withLock .pjsipAccMap (insertPjsipAcc pjId id)) k)

/-- The rule for sequences. -/
theorem Follows.bind {h : Holding} {u : AccountStrand α} {f : α → AccountStrand β}
    (hu : Follows id h u) (hf : ∀ a, Follows id .nothing (f a)) : Follows id h (u >>= f) := by
  induction hu with
  | done a => exact hf a
  | plain hx _ ih => exact .plain hx ih
  | take taken hx htaken hP _ ih => exact .take taken hx htaken hP ih
  | remove pjId _ ih => exact .remove pjId ih
  | unmap pjId _ ih => exact .unmap pjId ih
  | add args _ ih => exact .add args ih
  | store pjId _ ih => exact .store pjId ih
  | map pjId _ ih => exact .map pjId ih

/-- A run that leaves the accounts alone. -/
theorem keepsOwner_of_steady {x : Eng α} (h : Traced.Admits (Steady []) x) (e : Env) (s : Engine) :
    KeepsOwner id s (x.run e s).trace (x.run e s).state := by
  obtain ⟨htables, hacts⟩ := h.run e s
  exact ⟨congrArg (fun T : AccountTables ↦ T.owner id) htables,
    congrArg AccountTables.accMap htables, hacts⟩

/-- A step that leaves the accounts alone comes first. -/
theorem follows_steady_bind {x : Eng α} {f : α → AccountStrand β}
    (hx : Traced.Admits (Steady []) x) (hf : ∀ a, Follows id .nothing (f a)) :
    Follows id .nothing (Strand.plain x >>= f) :=
  .plain (keepsOwner_of_steady hx) hf

/-- A result. -/
theorem follows_pure (a : α) : Follows id .nothing (pure a : AccountStrand α) := .done a

/-- Taking the PJSIP id out of a record. -/
theorem takesOwner_takePjsipAccId (id : String) (state : RegistrationState) (e : Env) (s : Engine) :
    TakesOwner id s ((takePjsipAccId id state).run e s).trace
        ((takePjsipAccId id state).run e s).state ∧
      ((takePjsipAccId id state).run e s).value = ownedBy id s := by
  unfold takePjsipAccId ownedBy AccountTables.owner accountTables
  rw [Traced.run_bind, Traced.run_get]
  dsimp only
  cases hl : s.accounts.lookup id with
  | none =>
    refine ⟨⟨?_, rfl, rfl⟩, rfl⟩
    exact congrArg (Option.bind · Account.pjsipAccId) hl
  | some a =>
    refine ⟨⟨?_, rfl, rfl⟩, rfl⟩
    have hinsert : (s.accounts.insert id { a with pjsipAccId := none, regState := state }).lookup
        id = some { a with pjsipAccId := none, regState := state } := AList.lookup_insert _
    exact congrArg (Option.bind · Account.pjsipAccId) hinsert

/-- A critical section takes what its body takes. -/
theorem TakesOwner.withLock {m : Mutex} {x : Eng α} {e : Env} {s : Engine}
    (h : TakesOwner id s (x.run e s).trace (x.run e s).state) :
    TakesOwner id s ((withLock m x).run e s).trace ((withLock m x).run e s).state := by
  have hacts : accountView.Yields (Core.withLock m x) e s fun _ acts _ ↦ acts = [] :=
    accounts_withLock h.acts
  refine ⟨?_, ?_, hacts⟩
  · rw [run_withLock]
    exact h.owner
  · rw [run_withLock]
    exact h.map

/-- The critical section of `AccountUnregister`. -/
theorem takesOwner_takeForUnregister (id : String) (e : Env) (s : Engine) :
    TakesOwner id s ((takeForUnregister id).run e s).trace
        ((takeForUnregister id).run e s).state ∧
      ((takeForUnregister id).run e s).value.2 = ownedBy id s := by
  obtain ⟨htakes, hvalue⟩ := takesOwner_takePjsipAccId id .unregistered e s
  unfold takeForUnregister
  constructor
  · apply TakesOwner.withLock
    rw [Traced.run_bind, Traced.run_get, Traced.run_bind, List.nil_append, Traced.run_pure,
      List.append_nil]
    exact htakes
  · rw [run_withLock]
    dsimp only
    rw [Traced.run_bind, Traced.run_get, Traced.run_bind, Traced.run_pure]
    exact hvalue

/-- An account that is not there has no PJSIP id to take. -/
theorem takeForUnregister_unknown (id : String) (e : Env) (s : Engine) :
    ((takeForUnregister id).run e s).value.1 = false →
      ((takeForUnregister id).run e s).value.2 = none := by
  intro hunknown
  have hnone : s.accounts.lookup id = none := by
    unfold takeForUnregister at hunknown
    rw [run_withLock] at hunknown
    dsimp only at hunknown
    rw [Traced.run_bind, Traced.run_get, Traced.run_bind, Traced.run_pure] at hunknown
    exact Option.not_isSome_iff_eq_none.mp (Bool.eq_false_iff.mp hunknown)
  rw [(takesOwner_takeForUnregister id e s).2]
  exact congrArg (Option.bind · Account.pjsipAccId) hnone

/-- The critical section of `AccountDeleteProfile`. -/
theorem takesOwner_eraseAccount (id : String) (e : Env) (s : Engine) :
    TakesOwner id s ((eraseAccount id).run e s).trace ((eraseAccount id).run e s).state ∧
      ((eraseAccount id).run e s).value.bind (·.pjsipAccId) = ownedBy id s := by
  refine ⟨TakesOwner.withLock ⟨?_, rfl, rfl⟩, rfl⟩
  exact congrArg (Option.bind · Account.pjsipAccId) (AList.lookup_erase id s.accounts)

/-- The failure path of `AccountRegister` leaves the PJSIP id alone. -/
theorem keepsOwner_registerFailed (id : String) (e : Env) (s : Engine) :
    KeepsOwner id s ((registerFailed id).run e s).trace ((registerFailed id).run e s).state := by
  cases hl : s.accounts.lookup id with
  | none =>
    have push : Traced.Admits (Steady []) (pushRegState id addFailed) :=
      tame_pushRegState canLog_nil.2 (by decide) id addFailed
    have unset : accountView.Yields (setRegState id addFailed) e s fun _ acts T ↦
        acts = [] ∧ T = accountTables s := by
      unfold setRegState
      refine View.yields_get_bind ?_
      rw [hl]
      exact ⟨rfl, rfl⟩
    have failure : accountView.Yields (withLock .accounts do
        setRegState id addFailed
        pushRegState id addFailed
        logEngine .error s!"Account '{id}': pd_acc_add returned error") e s fun _ acts T ↦
          acts = [] ∧ T = accountTables s := by
      refine accounts_withLock (View.Yields.bind unset ?_)
      rintro _ acts s₁ ⟨rfl, hs₁⟩
      refine yields_steady_bind push fun _ s₂ hs₂ ↦ ?_
      exact yields_steady (tame_logEngine canLog_nil _ _) fun _ ↦ ⟨rfl, hs₂.trans hs₁⟩
    have whole : accountView.Yields (registerFailed id) e s fun _ acts T ↦
        acts = [] ∧ T = accountTables s := by
      unfold registerFailed
      refine View.Yields.bind failure ?_
      rintro _ acts s₁ ⟨rfl, hs₁⟩
      exact View.yields_pure ⟨rfl, hs₁⟩
    obtain ⟨hacts, htables⟩ := whole
    exact ⟨congrArg (fun T : AccountTables ↦ T.owner id) htables,
      congrArg AccountTables.accMap htables, hacts⟩
  | some a =>
    obtain ⟨-, hacts, htables⟩ := yields_registerFailed (e := e) hl
    refine ⟨?_, congrArg AccountTables.accMap htables, hacts⟩
    have howner := congrArg (fun T : AccountTables ↦ T.owner id) htables
    refine howner.trans ?_
    unfold ownedBy
    rw [AccountTables.owner_setAccount, Function.update_self]
    exact (congrArg (Option.bind · Account.pjsipAccId) hl).symm

/-- Removing the PJSIP account that was taken. -/
theorem follows_removeStrand (pjId : Int) : Follows id (.removing pjId) (removeStrand pjId) :=
  .remove pjId fun _ ↦ .unmap pjId follows_pure

/-- Forgetting the PJSIP account that was taken, if any. -/
theorem follows_forgetStrand (pjId : Option Int) (text : Int → String) :
    Follows id (.ofTaken pjId) (forgetStrand pjId text) := by
  cases pjId with
  | none => exact follows_pure ()
  | some pjId =>
    apply (follows_removeStrand pjId).bind
    intro _
    exact follows_steady_bind (tame_logEngine canLog_nil _ _) follows_pure

/-- `AccountRegister` from `pd_acc_add` on. -/
theorem follows_addStrand (id : String) (args : AccAddArgs) :
    Follows id .nothing (addStrand id args) := by
  apply Follows.add args
  intro rc
  by_cases hrc : rc < 0
  · rw [if_pos hrc]
    have hfailed : Follows id .nothing (Strand.plain (registerFailed id) : AccountStrand _) :=
      .plain (keepsOwner_registerFailed id) follows_pure
    change Follows id .nothing (if rc < 0 then _ else _)
    rwa [if_pos hrc]
  · rw [if_neg hrc]
    have hstarted : Follows id (.storing rc) (startedStrand id rc) := by
      refine .store rc fun _ ↦ .map rc fun _ ↦ ?_
      exact follows_steady_bind (tame_logEngine canLog_nil _ _) fun _ ↦ follows_pure _
    change Follows id (.storing rc) (if rc < 0 then _ else _)
    rwa [if_neg hrc]

/-- The transition to `Registering`. -/
theorem follows_beginStrand (id : String) (acct : Account) :
    Follows id .nothing (beginStrand id acct) := by
  have took (oldPjId : Option Int) :
      Follows id (.ofTaken oldPjId) (tookStrand id acct oldPjId) := by
    have push (payload : Json) : Follows id .nothing (Strand.plain
        (pushEvent "RegistrationStateChanged" payload) : AccountStrand Unit) :=
      .plain (keepsOwner_of_steady (tame_pushEvent canLog_nil.2 (by decide) _)) follows_pure
    cases oldPjId with
    | none => exact push _
    | some oldId => exact (follows_removeStrand oldId).bind fun _ ↦ push _
  have takes (e : Env) (s : Engine) := takesOwner_takePjsipAccId id .registering e s
  have take : Follows id .nothing (Strand.noting (fun pjId ↦ some (.took pjId))
      (withLock .accounts (takePjsipAccId id .registering)) >>= tookStrand id acct) := by
    refine .take (P := fun _ ↦ True) _ (fun e s ↦ (takes e s).1.withLock) (fun e s ↦ ?_)
      (fun _ _ ↦ trivial) fun pjId _ ↦ took pjId
    rw [run_withLock]
    exact (takes e s).2
  unfold beginStrand
  split
  · exact follows_steady_bind (tame_logEngine canLog_nil _ _) fun _ ↦ take
  · exact take

/-- A command for an account follows the steps. -/
theorem AccountCommand.follows {command : AccountCommand} (h : command.For id) :
    Follows id .nothing command.strand := by
  cases command with
  | register p =>
    have hkey : accountKey p = some id := h
    change Follows id .nothing (registerStrand p)
    unfold registerStrand
    rw [hkey]
    apply follows_steady_bind (tame_lookupForRegister id)
    intro found
    cases found with
    | none => exact follows_pure _
    | some acct =>
      apply (follows_beginStrand id acct).bind
      intro _
      cases accAddArgs acct with
      | error what =>
        exact follows_steady_bind (tame_logEngine canLog_nil _ _) fun _ ↦ follows_pure _
      | ok args => exact follows_addStrand id args
  | unregister p =>
    have hkey : accountKey p = some id := h
    change Follows id .nothing (unregisterStrand p)
    unfold unregisterStrand
    rw [hkey]
    refine .take (P := fun found ↦ found.1 = false → found.2 = none) _
      (fun e s ↦ (takesOwner_takeForUnregister id e s).1)
      (fun e s ↦ (takesOwner_takeForUnregister id e s).2) (takeForUnregister_unknown id) ?_
    rintro ⟨known, pjId⟩ hunknown
    cases known with
    | false =>
      have hnone : pjId = none := hunknown rfl
      rw [hnone]
      exact follows_pure _
    | true =>
      apply (follows_forgetStrand pjId _).bind
      intro _
      apply follows_steady_bind (tame_pushRegState canLog_nil.2 (by decide) _ _)
      exact fun _ ↦ follows_pure _
  | deleteProfile p =>
    have hkey : (p.get "uuid").asStr = some id := h
    change Follows id .nothing (deleteProfileStrand p)
    unfold deleteProfileStrand
    rw [hkey]
    refine .take (P := fun _ ↦ True) _ (fun e s ↦ (takesOwner_eraseAccount id e s).1)
      (fun e s ↦ (takesOwner_eraseAccount id e s).2) (fun _ _ ↦ trivial) fun found _ ↦ ?_
    cases found with
    | none => exact follows_pure _
    | some acct =>
      apply (follows_forgetStrand acct.pjsipAccId _).bind
      intro _
      apply follows_steady_bind (tame_shimDeleteProfile id)
      intro _
      apply follows_steady_bind (tame_logEngine canLog_nil _ _)
      intro _
      apply follows_steady_bind (tame_pushRegState canLog_nil.2 (by decide) _ _)
      intro _
      apply follows_steady_bind (tame_pushEvent canLog_nil.2 (by decide) _)
      exact fun _ ↦ follows_pure _

end Protocol

section Moves

variable {ι : Type} [DecidableEq ι] {id : String} {c c' : AccountPool ι} {m : ι × Env}
  {h h' : Holding}

/-- What a step leads to. -/
theorem AccountPool.step_eq {β : Type} {mark : β → Option AccountMark} {x : Eng β}
    {k : β → AccountStrand Unit} (hstrand : c.pool.strands m.1 = .step mark x k)
    (hs : c.step m = some c') :
    let out := x.run m.2 c.pool.state
    c'.pool = c.pool.advance m.1 (mark out.value) out.state out.trace (k out.value) ∧
      liveAfter m.2 c.live (accountView.trace out.trace) = some c'.live := by
  obtain ⟨pool, hpool, hs⟩ := Option.bind_eq_some_iff.mp hs
  obtain ⟨live, hlive, rfl⟩ := Option.map_eq_some_iff.mp hs
  have heq := Pool.step_eq hstrand hpool
  refine ⟨heq, ?_⟩
  rw [heq, Pool.advance_trace, List.drop_left] at hlive
  exact hlive

/-- A command that is done takes no step. -/
theorem AccountPool.step_done (hstrand : c.pool.strands m.1 = .done ()) : c.step m = none := by
  unfold AccountPool.step
  rw [Pool.step_done hstrand]
  rfl

/-- A step of a command leaves the others where they are. -/
theorem AccountPool.step_other {j : ι} (hs : c.step m = some c') (hj : j ≠ m.1) :
    c'.pool.strands j = c.pool.strands j := by
  obtain ⟨pool, hpool, hs⟩ := Option.bind_eq_some_iff.mp hs
  obtain ⟨live, -, rfl⟩ := Option.map_eq_some_iff.mp hs
  exact Pool.step_other hpool hj

/-- What a step of the command `i` does to the PJSIP accounts of the account. -/
inductive OwnerMove (id : String) (i : ι) (c c' : AccountPool ι) : Holding → Holding → Prop
  | keeps (howner : ownedBy id c'.pool.state = ownedBy id c.pool.state)
      (hmap : c'.pool.state.pjsipAccMap = c.pool.state.pjsipAccMap) (hlive : c'.live = c.live)
      (hlog : c'.pool.log = c.pool.log) : OwnerMove id i c c' .nothing .nothing
  | takes (howner : ownedBy id c'.pool.state = none)
      (hmap : c'.pool.state.pjsipAccMap = c.pool.state.pjsipAccMap) (hlive : c'.live = c.live)
      (hlog : c'.pool.log = c.pool.log ++ [(i, .took (ownedBy id c.pool.state))]) :
      OwnerMove id i c c' .nothing (.ofTaken (ownedBy id c.pool.state))
  | removes {pjId : Int} (howner : ownedBy id c'.pool.state = ownedBy id c.pool.state)
      (hmap : c'.pool.state.pjsipAccMap = c.pool.state.pjsipAccMap)
      (hlive : c'.live = c.live.filter (· ≠ pjId))
      (hlog : c'.pool.log = c.pool.log ++ [(i, .removed pjId)]) :
      OwnerMove id i c c' (.removing pjId) (.unmapping pjId)
  | unmaps {pjId : Int} (howner : ownedBy id c'.pool.state = ownedBy id c.pool.state)
      (hmap : c'.pool.state.pjsipAccMap = c.pool.state.pjsipAccMap.erase pjId)
      (hlive : c'.live = c.live) (hlog : c'.pool.log = c.pool.log ++ [(i, .unmapped pjId)]) :
      OwnerMove id i c c' (.unmapping pjId) .nothing
  | adds {pjId : Int} (hfresh : pjId ∉ c.live)
      (howner : ownedBy id c'.pool.state = ownedBy id c.pool.state)
      (hmap : c'.pool.state.pjsipAccMap = c.pool.state.pjsipAccMap)
      (hlive : c'.live = pjId :: c.live)
      (hlog : c'.pool.log = c.pool.log ++ [(i, .added pjId)]) :
      OwnerMove id i c c' .nothing (.storing pjId)
  | stores {pjId : Int}
      (howner : ownedBy id c'.pool.state =
        (c.pool.state.accounts.lookup id).map fun _ ↦ pjId)
      (hmap : c'.pool.state.pjsipAccMap = c.pool.state.pjsipAccMap) (hlive : c'.live = c.live)
      (hlog : c'.pool.log = c.pool.log ++ [(i, .stored pjId)]) :
      OwnerMove id i c c' (.storing pjId) (.mapping pjId)
  | maps {pjId : Int} (howner : ownedBy id c'.pool.state = ownedBy id c.pool.state)
      (hmap : c'.pool.state.pjsipAccMap = c.pool.state.pjsipAccMap.insert pjId id)
      (hlive : c'.live = c.live) (hlog : c'.pool.log = c.pool.log ++ [(i, .mapped pjId)]) :
      OwnerMove id i c c' (.mapping pjId) .nothing

/-- Storing an id in the account. -/
theorem run_storePjsipAccId (id : String) (pjId : Int) (e : Env) (s : Engine) :
    ownedBy id ((storePjsipAccId id pjId).run e s).state =
        (s.accounts.lookup id).map (fun _ ↦ pjId) ∧
      ((storePjsipAccId id pjId).run e s).state.pjsipAccMap = s.pjsipAccMap ∧
      accountView.trace ((storePjsipAccId id pjId).run e s).trace = [] := by
  unfold storePjsipAccId ownedBy AccountTables.owner accountTables
  rw [run_withLock, Traced.run_bind, Traced.run_get]
  dsimp only
  cases hl : s.accounts.lookup id with
  | none => exact ⟨congrArg (Option.bind · Account.pjsipAccId) hl, rfl, rfl⟩
  | some a =>
    refine ⟨?_, rfl, rfl⟩
    have hinsert : (s.accounts.insert id { a with pjsipAccId := some pjId }).lookup id =
        some { a with pjsipAccId := some pjId } := AList.lookup_insert _
    exact congrArg (Option.bind · Account.pjsipAccId) hinsert

/-- Every step of a command for the account is one of these. -/
theorem move_of_step (hfollows : Follows id h (c.pool.strands m.1)) (hs : c.step m = some c') :
    ∃ h', Follows id h' (c'.pool.strands m.1) ∧ OwnerMove id m.1 c c' h h' := by
  generalize hu : c.pool.strands m.1 = u at hfollows
  cases hfollows with
  | done a =>
    rw [AccountPool.step_done hu] at hs
    cases hs
  | plain hx hk =>
    obtain ⟨hpool, hlive⟩ := AccountPool.step_eq hu hs
    obtain ⟨howner, hmap, hacts⟩ := hx m.2 c.pool.state
    rw [hacts] at hlive
    refine ⟨.nothing, ?_, .keeps ?_ ?_ (Option.some.inj hlive).symm ?_⟩
    · rw [hpool, Pool.advance_self]
      exact hk _
    · rw [hpool]
      exact howner
    · rw [hpool]
      exact hmap
    · rw [hpool, Pool.advance_log_none]
  | take taken hx htaken hP hk =>
    obtain ⟨hpool, hlive⟩ := AccountPool.step_eq hu hs
    obtain ⟨howner, hmap, hacts⟩ := hx m.2 c.pool.state
    have hvalue := htaken m.2 c.pool.state
    rw [hacts] at hlive
    refine ⟨_, ?_, .takes ?_ ?_ (Option.some.inj hlive).symm ?_⟩
    · rw [hpool, Pool.advance_self, ← hvalue]
      exact hk _ (hP m.2 c.pool.state)
    · rw [hpool]
      exact howner
    · rw [hpool]
      exact hmap
    · rw [hpool, hvalue]
      rfl
  | remove pjId hk =>
    obtain ⟨hpool, hlive⟩ := AccountPool.step_eq hu hs
    refine ⟨.unmapping pjId, ?_, .removes ?_ ?_ (Option.some.inj hlive).symm ?_⟩
    · rw [hpool, Pool.advance_self]
      exact hk _
    all_goals
      rw [hpool]
      rfl
  | unmap pjId hk =>
    obtain ⟨hpool, hlive⟩ := AccountPool.step_eq hu hs
    refine ⟨.nothing, ?_, .unmaps ?_ ?_ (Option.some.inj hlive).symm ?_⟩
    · rw [hpool, Pool.advance_self]
      exact hk _
    all_goals
      rw [hpool]
      rfl
  | add args hk =>
    obtain ⟨hpool, hlive⟩ := AccountPool.step_eq hu hs
    have hvalue : ((shim (.pdAccAdd args)).run m.2 c.pool.state).value = m.2.rc (.pdAccAdd args) :=
      rfl
    have hacts : accountView.trace ((shim (.pdAccAdd args)).run m.2 c.pool.state).trace =
        [.pdAccAdd args] := rfl
    have hnext := hk (m.2.rc (.pdAccAdd args))
    rw [hvalue] at hpool
    rw [hacts] at hlive
    by_cases hrc : m.2.rc (.pdAccAdd args) < 0
    · rw [liveAfter_refused hrc] at hlive
      rw [if_pos hrc] at hpool hnext
      refine ⟨.nothing, ?_, .keeps ?_ ?_ (Option.some.inj hlive).symm ?_⟩
      · rw [hpool, Pool.advance_self]
        exact hnext
      · rw [hpool]
        rfl
      · rw [hpool]
        rfl
      · rw [hpool, Pool.advance_log_none]
    · obtain ⟨hfresh, hlive⟩ := liveAfter_started (not_lt.mp hrc) hlive
      rw [if_neg hrc] at hpool hnext
      refine ⟨.storing _, ?_, .adds hfresh ?_ ?_ hlive ?_⟩
      · rw [hpool, Pool.advance_self]
        exact hnext
      all_goals
        rw [hpool]
        rfl
  | store pjId hk =>
    obtain ⟨hpool, hlive⟩ := AccountPool.step_eq hu hs
    obtain ⟨howner, hmap, hacts⟩ := run_storePjsipAccId id pjId m.2 c.pool.state
    rw [hacts] at hlive
    refine ⟨.mapping pjId, ?_, .stores ?_ ?_ (Option.some.inj hlive).symm ?_⟩
    · rw [hpool, Pool.advance_self]
      exact hk _
    · rw [hpool]
      exact howner
    · rw [hpool]
      exact hmap
    · rw [hpool]
      rfl
  | map pjId hk =>
    obtain ⟨hpool, hlive⟩ := AccountPool.step_eq hu hs
    refine ⟨.nothing, ?_, .maps ?_ ?_ (Option.some.inj hlive).symm ?_⟩
    · rw [hpool, Pool.advance_self]
      exact hk _
    all_goals
      rw [hpool]
      rfl

end Moves

section Invariants

variable {ι : Type} {id : String} {owner : Option Int} {c c' : AccountPool ι} {i : ι}
  {h : ι → Holding} {new : Holding}

/-- The id that the command enters in `PJSIP_ACC_MAP`, or takes out of it, before it is done. -/
def Holding.pending : Holding → Option Int
  | .removing pjId | .unmapping pjId | .mapping pjId => some pjId
  | _ => none

/-- What was taken is held. -/
theorem Holding.held_ofTaken (pjId : Option Int) : (Holding.ofTaken pjId).held = pjId := by
  cases pjId <;> rfl

/-- What was taken is still in `PJSIP_ACC_MAP`. -/
theorem Holding.pending_ofTaken (pjId : Option Int) : (Holding.ofTaken pjId).pending = pjId := by
  cases pjId <;> rfl

/-- The PJSIP ids of the account and of the commands are live, and no two have the same. -/
structure Custody (id : String) (c : AccountPool ι) (h : ι → Holding) : Prop where
  owned : ∀ pjId, ownedBy id c.pool.state = some pjId → pjId ∈ c.live
  held : ∀ i pjId, (h i).held = some pjId → pjId ∈ c.live ∧ ownedBy id c.pool.state ≠ some pjId
  once : ∀ i j pjId, (h i).held = some pjId → (h j).held = some pjId → i = j

/-- A PJSIP account lives that neither the account nor a command knows of. -/
structure Lost (id : String) (pjId : Int) (c : AccountPool ι) (h : ι → Holding) : Prop where
  live : pjId ∈ c.live
  unowned : ownedBy id c.pool.state ≠ some pjId
  unheld : ∀ i, (h i).held ≠ some pjId

/-- `PJSIP_ACC_MAP` is what the log says, and follows the changes of the account. The account had
`owner` at first. -/
structure Marked (id : String) (owner : Option Int) (c : AccountPool ι) (h : ι → Holding) :
    Prop where
  routed : ∀ pjId, c.pool.state.pjsipAccMap.lookup pjId = some id ↔
    latest (routeMark pjId) c.pool.log = some true ∨
      (latest (routeMark pjId) c.pool.log = none ∧ owner = some pjId)
  pending : ∀ i pjId, (h i).pending = some pjId → latest (ownerMark pjId) c.pool.log ≠ none
  settled : ∀ pjId, latest (ownerMark pjId) c.pool.log ≠ none →
    latest (routeMark pjId) c.pool.log ≠ none ∨ ∃ i, (h i).pending = some pjId
  followed : ∀ pjId, latest (routeMark pjId) c.pool.log ≠ none →
    latest (ownerMark pjId) c.pool.log ≠ none

/-- No PJSIP account was lost, and the PJSIP id of the account is what the log says. -/
structure NothingLost (id : String) (owner : Option Int) (c : AccountPool ι) (h : ι → Holding) :
    Prop where
  kept : ∀ pjId ∈ c.live, ownedBy id c.pool.state = some pjId ∨ ∃ i, (h i).held = some pjId
  logged : ∀ pjId, ownedBy id c.pool.state = some pjId ↔
    latest (ownerMark pjId) c.pool.log = some true ∨
      (latest (ownerMark pjId) c.pool.log = none ∧ owner = some pjId)

/-- The account after an id was stored has that id, if it is there. -/
theorem eq_of_stored {pjId : Int} {a : Option Account}
    (howner : ownedBy id c'.pool.state = a.map fun _ ↦ pjId) (pjId' : Int)
    (h : ownedBy id c'.pool.state = some pjId') : pjId' = pjId := by
  rw [howner] at h
  obtain ⟨_, -, rfl⟩ := Option.map_eq_some_iff.mp h
  rfl

/-- The last value of a mark after a step. -/
theorem latest_of_log {β : Type} (value : ι × AccountMark → Option β) {x : ι × AccountMark}
    (hlog : c'.pool.log = c.pool.log ++ [x]) :
    latest value c'.pool.log = (value x).or (latest value c.pool.log) := by
  rw [hlog, latest_concat]

/-- The account lost what was taken. -/
theorem ownerMark_took (i : ι) (pjId : Int) (taken : Option Int) :
    ownerMark pjId (i, .took taken) = if taken = some pjId then some false else none := by
  cases taken <;> simp [ownerMark]

variable [DecidableEq ι]

/-- What the commands hold after a step of one of them. -/
theorem held_update (h : ι → Holding) (i : ι) (new : Holding) (j : ι) :
    (Function.update h i new j).held = if j = i then new.held else (h j).held := by
  rw [Function.update_apply, apply_ite Holding.held]

/-- What the commands have to do after a step of one of them. -/
theorem pending_update (h : ι → Holding) (i : ι) (new : Holding) (j : ι) :
    (Function.update h i new j).pending = if j = i then new.pending else (h j).pending := by
  rw [Function.update_apply, apply_ite Holding.pending]

/-- A step keeps the ids apart. -/
theorem custody_step (hc : Custody id c h) (move : OwnerMove id i c c' (h i) new) :
    Custody id c' (Function.update h i new) := by
  obtain ⟨owned, held, once⟩ := hc
  have hupdate := held_update h i new
  generalize hi : h i = old at move
  have hold : (h i).held = old.held := congrArg _ hi
  cases move with
  | keeps howner hmap hlive hlog => constructor <;> grind [Holding.held]
  | takes howner hmap hlive hlog =>
    rw [Holding.held_ofTaken] at hupdate
    constructor <;> grind [Holding.held]
  | removes howner hmap hlive hlog => constructor <;> grind [Holding.held]
  | unmaps howner hmap hlive hlog => constructor <;> grind [Holding.held]
  | adds hfresh howner hmap hlive hlog => constructor <;> grind [Holding.held]
  | stores howner hmap hlive hlog =>
    have hstored := eq_of_stored howner
    constructor <;> grind [Holding.held]
  | maps howner hmap hlive hlog => constructor <;> grind [Holding.held]

/-- A PJSIP account that is lost stays lost. -/
theorem lost_step {pjId : Int} (hc : Lost id pjId c h)
    (move : OwnerMove id i c c' (h i) new) : Lost id pjId c' (Function.update h i new) := by
  obtain ⟨live, unowned, unheld⟩ := hc
  have hupdate := held_update h i new
  generalize hi : h i = old at move
  have hold : (h i).held = old.held := congrArg _ hi
  cases move with
  | keeps howner hmap hlive hlog => constructor <;> grind [Holding.held]
  | takes howner hmap hlive hlog =>
    rw [Holding.held_ofTaken] at hupdate
    constructor <;> grind [Holding.held]
  | removes howner hmap hlive hlog => constructor <;> grind [Holding.held]
  | unmaps howner hmap hlive hlog => constructor <;> grind [Holding.held]
  | adds hfresh howner hmap hlive hlog => constructor <;> grind [Holding.held]
  | stores howner hmap hlive hlog =>
    have hstored := eq_of_stored howner
    constructor <;> grind [Holding.held]
  | maps howner hmap hlive hlog => constructor <;> grind [Holding.held]

/-- A step keeps `PJSIP_ACC_MAP` what the log says. -/
theorem marked_step (hc : Marked id owner c h) (move : OwnerMove id i c c' (h i) new) :
    Marked id owner c' (Function.update h i new) := by
  obtain ⟨routed, pending, settled, followed⟩ := hc
  have hupdate := pending_update h i new
  generalize hi : h i = old at move
  have hold : (h i).pending = old.pending := congrArg _ hi
  cases move with
  | keeps howner hmap hlive hlog => constructor <;> grind [Holding.pending]
  | takes howner hmap hlive hlog =>
    have hroute (pjId : Int) := latest_of_log (routeMark pjId) hlog
    have hmark (pjId : Int) := latest_of_log (ownerMark pjId) hlog
    rw [Holding.pending_ofTaken] at hupdate
    constructor <;> grind [Holding.pending, routeMark, ownerMark_took]
  | removes howner hmap hlive hlog =>
    have hroute (pjId : Int) := latest_of_log (routeMark pjId) hlog
    have hmark (pjId : Int) := latest_of_log (ownerMark pjId) hlog
    constructor <;> grind [Holding.pending, routeMark, ownerMark]
  | @unmaps pjId howner hmap hlive hlog =>
    have hroute (pjId : Int) := latest_of_log (routeMark pjId) hlog
    have hmark (pjId : Int) := latest_of_log (ownerMark pjId) hlog
    have hlookup (pjId' : Int) : c'.pool.state.pjsipAccMap.lookup pjId' =
        if pjId' = pjId then none else c.pool.state.pjsipAccMap.lookup pjId' := by
      rw [hmap]
      exact (congrFun (lookup_erase_eq pjId _) pjId').trans (Function.update_apply _ _ _ _)
    constructor <;> grind [Holding.pending, routeMark, ownerMark]
  | adds hfresh howner hmap hlive hlog =>
    have hroute (pjId : Int) := latest_of_log (routeMark pjId) hlog
    have hmark (pjId : Int) := latest_of_log (ownerMark pjId) hlog
    constructor <;> grind [Holding.pending, routeMark, ownerMark]
  | stores howner hmap hlive hlog =>
    have hroute (pjId : Int) := latest_of_log (routeMark pjId) hlog
    have hmark (pjId : Int) := latest_of_log (ownerMark pjId) hlog
    constructor <;> grind [Holding.pending, routeMark, ownerMark]
  | @maps pjId howner hmap hlive hlog =>
    have hroute (pjId : Int) := latest_of_log (routeMark pjId) hlog
    have hmark (pjId : Int) := latest_of_log (ownerMark pjId) hlog
    have hlookup (pjId' : Int) : c'.pool.state.pjsipAccMap.lookup pjId' =
        if pjId' = pjId then some id else c.pool.state.pjsipAccMap.lookup pjId' := by
      rw [hmap]
      exact (congrFun (lookup_insert_eq pjId id _) pjId').trans (Function.update_apply _ _ _ _)
    constructor <;> grind [Holding.pending, routeMark, ownerMark]

/-- A step that stores no id but in an account without one loses no PJSIP account. -/
theorem nothingLost_step (hc : NothingLost id owner c h)
    (hfree : ∀ pjId, c'.pool.log = c.pool.log ++ [(i, .stored pjId)] →
      ∃ a, c.pool.state.accounts.lookup id = some a ∧ a.pjsipAccId = none)
    (move : OwnerMove id i c c' (h i) new) : NothingLost id owner c' (Function.update h i new) := by
  obtain ⟨kept, logged⟩ := hc
  have hupdate := held_update h i new
  generalize hi : h i = old at move
  have hold : (h i).held = old.held := congrArg _ hi
  cases move with
  | keeps howner hmap hlive hlog => constructor <;> grind [Holding.held]
  | takes howner hmap hlive hlog =>
    have hmark (pjId : Int) := latest_of_log (ownerMark pjId) hlog
    rw [Holding.held_ofTaken] at hupdate
    constructor <;> grind [Holding.held, ownerMark_took]
  | removes howner hmap hlive hlog =>
    have hmark (pjId : Int) := latest_of_log (ownerMark pjId) hlog
    constructor <;> grind [Holding.held, ownerMark]
  | unmaps howner hmap hlive hlog =>
    have hmark (pjId : Int) := latest_of_log (ownerMark pjId) hlog
    constructor <;> grind [Holding.held, ownerMark]
  | adds hfresh howner hmap hlive hlog =>
    have hmark (pjId : Int) := latest_of_log (ownerMark pjId) hlog
    constructor <;> grind [Holding.held, ownerMark]
  | stores howner hmap hlive hlog =>
    have hmark (pjId : Int) := latest_of_log (ownerMark pjId) hlog
    obtain ⟨a, hl, hnone⟩ := hfree _ hlog
    rw [hl, Option.map_some] at howner
    have hunowned : ownedBy id c.pool.state = none := by
      unfold ownedBy AccountTables.owner
      exact (congrArg (Option.bind · Account.pjsipAccId) hl).trans hnone
    constructor <;> grind [Holding.held, ownerMark]
  | maps howner hmap hlive hlog =>
    have hmark (pjId : Int) := latest_of_log (ownerMark pjId) hlog
    constructor <;> grind [Holding.held, ownerMark]

/-- A step that stores an id where the account is not there, or has one, loses a PJSIP account. -/
theorem lost_of_stored {pjId : Int} (hc : Custody id c h)
    (hlog : c'.pool.log = c.pool.log ++ [(i, .stored pjId)])
    (hfull : ¬ ∃ a, c.pool.state.accounts.lookup id = some a ∧ a.pjsipAccId = none)
    (move : OwnerMove id i c c' (h i) new) :
    ∃ pjId', Lost id pjId' c' (Function.update h i new) := by
  obtain ⟨owned, held, once⟩ := hc
  have hupdate := held_update h i new
  generalize hi : h i = old at move
  have hold : (h i).held = old.held := congrArg _ hi
  cases move with
  | @stores pjId' howner hmap hlive hlog' =>
    have hstored := eq_of_stored howner
    cases hl : c.pool.state.accounts.lookup id with
    | none =>
      -- the new PJSIP account is lost
      rw [hl, Option.map_none] at howner
      exact ⟨pjId', by constructor <;> grind [Holding.held]⟩
    | some a =>
      -- the one that the account had is lost
      obtain ⟨old, hold⟩ := Option.ne_none_iff_exists'.mp fun hnone ↦ hfull ⟨a, hl, hnone⟩
      have howned : ownedBy id c.pool.state = some old := by
        unfold ownedBy AccountTables.owner
        exact (congrArg (Option.bind · Account.pjsipAccId) hl).trans hold
      exact ⟨old, by constructor <;> grind [Holding.held]⟩
  | _ => simp_all

end Invariants

section Runs

variable {ι : Type} [DecidableEq ι] {id : String} {owner : Option Int} {c c' : AccountPool ι}
  {m : ι × Env} {h : ι → Holding} {s : Engine} {live : List Int} {commands : ι → AccountCommand}
  {ms : List (ι × Env)}

omit [DecidableEq ι] in
/-- What holds of every run: the commands follow their steps with `h` in their hands. -/
structure Contending (id : String) (owner : Option Int) (c : AccountPool ι) (h : ι → Holding) :
    Prop where
  follows : ∀ i, Follows id (h i) (c.pool.strands i)
  custody : Custody id c h
  marked : Marked id owner c h

/-- The step lemma. -/
theorem contending_step (hr : Contending id owner c h) (hs : c.step m = some c') :
    ∃ new, OwnerMove id m.1 c c' (h m.1) new ∧
      Contending id owner c' (Function.update h m.1 new) := by
  obtain ⟨new, hfollows, move⟩ := move_of_step (hr.follows m.1) hs
  refine ⟨new, move, ⟨fun i ↦ ?_, custody_step hr.custody move, marked_step hr.marked move⟩⟩
  by_cases hi : i = m.1
  · rw [hi, Function.update_self]
    exact hfollows
  · rw [Function.update_of_ne hi, AccountPool.step_other hs hi]
    exact hr.follows i

omit [DecidableEq ι] in
/-- The commands at their start, where all is tidy. -/
theorem contending_start (hfor : ∀ i, (commands i).For id) (htidy : Tidy id live s) :
    Contending id (ownedBy id s) (commandPool s live commands) fun _ ↦ .nothing where
  follows i := (AccountCommand.follows (hfor i)).bind fun _ ↦ follows_pure ()
  custody :=
    { owned := fun pjId h ↦ (htidy pjId).1.mpr h
      held := by
        intro _ _ h
        cases h
      once := by
        intro _ _ _ h
        cases h }
  marked :=
    { routed := fun pjId ↦ by simp [commandPool, latest, (htidy pjId).2]
      pending := by
        intro _ _ h
        cases h
      settled := fun pjId h ↦ absurd rfl h
      followed := fun pjId h ↦ absurd rfl h }

omit [DecidableEq ι] in
/-- A command that is done has nothing in its hands. -/
theorem Contending.nothing (hr : Contending id owner c h) (hdone : c.pool.Finished) (i : ι) :
    h i = .nothing := by
  have hfollows := hr.follows i
  rw [Strand.eq_done (hdone i)] at hfollows
  generalize h i = holding at hfollows
  cases hfollows
  rfl

/-- What is lost before the end is lost at the end. -/
theorem lost_run {pjId : Int} (hr : Contending id owner c h) (hlost : Lost id pjId c h)
    (run : ms.foldlM AccountPool.step c = some c') : ∃ h', Lost id pjId c' h' := by
  have final := (Path.of_foldlM run).invariant (I := fun u ↦ ∃ h, Contending id owner u h ∧
    Lost id pjId u h) ⟨h, hr, hlost⟩ fun u m v ⟨h, hr, hlost⟩ _ hs ↦ by
      obtain ⟨new, move, hr'⟩ := contending_step hr hs
      exact ⟨_, hr', lost_step hlost move⟩
  obtain ⟨h', -, hlost'⟩ := final
  exact ⟨h', hlost'⟩

/-- The run lemma. -/
theorem contending_run (hr : Contending id owner c h)
    (run : ms.foldlM AccountPool.step c = some c') : ∃ h', Contending id owner c' h' :=
  (Path.of_foldlM run).invariant (I := fun u ↦ ∃ h, Contending id owner u h) ⟨h, hr⟩
    fun u m v ⟨h, hr⟩ _ hs ↦ by
      obtain ⟨new, -, hr'⟩ := contending_step hr hs
      exact ⟨_, hr'⟩

/-- Where all is tidy at the end, every id was stored in an account that was there without one. -/
theorem storesFree_of_tidy (hfor : ∀ i, (commands i).For id) (htidy : Tidy id live s)
    (run : ms.foldlM AccountPool.step (commandPool s live commands) = some c)
    (hfinal : Tidy id c.live c.pool.state) :
    Path AccountPool.step (StoresFree id) (commandPool s live commands) ms c := by
  rw [Path.iff_forall run]
  intro js m u hpre hjs v pjId hs hlog
  by_contra hfull
  obtain ⟨h, hr⟩ := contending_run (contending_start hfor htidy) hjs
  obtain ⟨new, move, hr'⟩ := contending_step hr hs
  obtain ⟨lost, hlost⟩ := lost_of_stored hr.custody hlog hfull move
  obtain ⟨ks, rfl⟩ := hpre
  have hrest : ks.foldlM AccountPool.step v = some c := by
    simpa [List.foldlM_append, hjs, hs] using run
  obtain ⟨h', hlost'⟩ := lost_run hr' hlost hrest
  exact hlost'.unowned ((hfinal lost).1.mp hlost'.live)

/-- Once any number of commands for an account have returned, a PJSIP account lives for it just if
the account and `PJSIP_ACC_MAP` have its id, if and only if each registration stored its id in an
account that was there without one, and the changes of `PJSIP_ACC_MAP` ended as those of the
account did. -/
theorem account_tidy_iff (hfor : ∀ i, (commands i).For id) (htidy : Tidy id live s)
    (run : ms.foldlM AccountPool.step (commandPool s live commands) = some c)
    (hdone : c.pool.Finished) :
    Tidy id c.live c.pool.state ↔
      Path AccountPool.step (StoresFree id) (commandPool s live commands) ms c ∧
        RoutesFollow c.pool.log := by
  have nothingLost
      (path : Path AccountPool.step (StoresFree id) (commandPool s live commands) ms c) :
      ∃ h, Contending id (ownedBy id s) c h ∧ NothingLost id (ownedBy id s) c h := by
    refine path.invariant (I := fun u ↦ ∃ h, Contending id (ownedBy id s) u h ∧
      NothingLost id (ownedBy id s) u h) ⟨_, contending_start hfor htidy, ?_, ?_⟩ ?_
    · exact fun pjId hlive ↦ Or.inl ((htidy pjId).1.mp hlive)
    · simp [commandPool, latest]
    · rintro u m v ⟨h, hr, hc⟩ hfree hs
      obtain ⟨new, move, hr'⟩ := contending_step hr hs
      exact ⟨_, hr', nothingLost_step hc (fun pjId hlog ↦ hfree v pjId hs hlog) move⟩
  constructor
  · intro hfinal
    have path := storesFree_of_tidy hfor htidy run hfinal
    refine ⟨path, fun pjId ↦ ?_⟩
    obtain ⟨h, hr, hc⟩ := nothingLost path
    have hnothing := hr.nothing hdone
    have hrouted := hr.marked.routed pjId
    have hsettled := hr.marked.settled pjId
    have hfollowed := hr.marked.followed pjId
    have hlogged := hc.logged pjId
    rw [(hfinal pjId).2, hlogged] at hrouted
    have hboth : latest (routeMark pjId) c.pool.log = none ↔
        latest (ownerMark pjId) c.pool.log = none := by
      refine ⟨fun hroute ↦ ?_, fun hmark ↦ ?_⟩
      · by_contra hmark
        rcases hsettled hmark with hne | ⟨i, hpending⟩
        · exact hne hroute
        · rw [hnothing i] at hpending
          cases hpending
      · by_contra hroute
        exact hfollowed hroute hmark
    cases hroute : latest (routeMark pjId) c.pool.log with
    | none => exact (hboth.mp hroute).symm
    | some value =>
      cases hmark : latest (ownerMark pjId) c.pool.log with
      | none =>
        rw [hboth.mpr hmark] at hroute
        cases hroute
      | some value' =>
        rw [hroute, hmark] at hrouted
        cases value <;> cases value' <;> simp_all
  · rintro ⟨path, hroutes⟩ pjId
    obtain ⟨h, hr, hc⟩ := nothingLost path
    have hnothing := hr.nothing hdone
    constructor
    · constructor
      · intro hlive
        rcases hc.kept pjId hlive with howner | ⟨i, hheld⟩
        · exact howner
        · rw [hnothing i] at hheld
          cases hheld
      · exact hr.custody.owned pjId
    · rw [hr.marked.routed, hc.logged, hroutes pjId]

/-- A registration of the account, under `true`, next to another command for it. -/
def nextToRegister (command : Json → AccountCommand) (registers : Bool) : AccountCommand :=
  if registers then .register (.obj [("uuid", .str "a")]) else command (.obj [("uuid", .str "a")])

/-- Both are commands for the account. -/
theorem nextToRegister_for (command : Json → AccountCommand)
    (h : (command (.obj [("uuid", .str "a")])).For "a") (registers : Bool) :
    (nextToRegister command registers).For "a" := by
  cases registers with
  | true => rfl
  | false => exact h

/-- The start: no PJSIP account, and no routes. -/
theorem exists_untouched : ∃ s, newAccount.foldlM engineStep Engine.initial = some s ∧
    ownedBy "a" s = none ∧ s.pjsipAccMap.entries = [] := by
  have h : (newAccount.foldlM engineStep Engine.initial).map (fun s ↦
      (ownedBy "a" s, s.pjsipAccMap.keys)) = some (none, []) := by decide
  obtain ⟨s, hs, hv⟩ := Option.map_eq_some_iff.mp h
  obtain ⟨howner, hkeys⟩ := Prod.mk.inj hv
  exact ⟨s, hs, howner, List.map_eq_nil_iff.mp hkeys⟩

/-- Nothing lives, and nothing is routed. -/
theorem tidy_nothing {id : String} {s : Engine} (howner : ownedBy id s = none)
    (hentries : s.pjsipAccMap.entries = []) : Tidy id [] s := by
  intro pjId
  have hlookup : s.pjsipAccMap.lookup pjId = none := by
    unfold AList.lookup
    rw [hentries]
    rfl
  simp [howner, hlookup]

/-- A registration and then an un-registration, as an instance. -/
theorem account_tidy_iff_inTurn :
    ∃ s c, newAccount.foldlM engineStep Engine.initial = some s ∧
      ((List.replicate 7 true ++ List.replicate 5 false).map (·, quietEnv)).foldlM
        AccountPool.step (commandPool s [] (nextToRegister .unregister)) = some c ∧
      Tidy "a" c.live c.pool.state ∧ RoutesFollow c.pool.log := by
  obtain ⟨s, hs, howner, hentries⟩ := exists_untouched
  have h : ((newAccount.foldlM engineStep Engine.initial).bind fun s ↦
      ((List.replicate 7 true ++ List.replicate 5 false).map (·, quietEnv)).foldlM
        AccountPool.step (commandPool s [] (nextToRegister .unregister))).map (fun c ↦
          ((c.pool.strands true).isDone && (c.pool.strands false).isDone, c.live,
            ownedBy "a" c.pool.state, c.pool.state.pjsipAccMap.keys)) =
      some (true, [], none, []) := by decide
  rw [hs] at h
  obtain ⟨c, hc, hv⟩ := Option.map_eq_some_iff.mp h
  simp only [Prod.mk.injEq] at hv
  obtain ⟨hboth, hlive, howner', hkeys⟩ := hv
  obtain ⟨htrue, hfalse⟩ := Bool.and_eq_true_iff.mp hboth
  have hdone : c.pool.Finished := fun i ↦ by cases i <;> assumption
  have hfinal : Tidy "a" c.live c.pool.state := by
    rw [hlive]
    exact tidy_nothing howner' (List.map_eq_nil_iff.mp hkeys)
  exact ⟨s, c, hs, hc, hfinal, ((account_tidy_iff (nextToRegister_for .unregister rfl)
    (tidy_nothing howner hentries) hc hdone).mp hfinal).2⟩

/-- The account is deleted while `AccountRegister` waits for `pd_acc_add`: the PJSIP account lives
on and is routed to an account that is gone. -/
theorem deleted_account_lives :
    ∃ s c, newAccount.foldlM engineStep Engine.initial = some s ∧ Tidy "a" [] s ∧
      ((List.replicate 4 true ++ List.replicate 5 false ++ List.replicate 3 true).map
        (·, quietEnv)).foldlM AccountPool.step
          (commandPool s [] (nextToRegister .deleteProfile)) = some c ∧ c.pool.Finished ∧
      c.live = [0] ∧ c.pool.state.pjsipAccMap.lookup 0 = some "a" ∧
      c.pool.state.accounts.lookup "a" = none ∧ ¬ Tidy "a" c.live c.pool.state := by
  obtain ⟨s, hs, howner, hentries⟩ := exists_untouched
  have h : ((newAccount.foldlM engineStep Engine.initial).bind fun s ↦
      ((List.replicate 4 true ++ List.replicate 5 false ++ List.replicate 3 true).map
        (·, quietEnv)).foldlM AccountPool.step
          (commandPool s [] (nextToRegister .deleteProfile))).map (fun c ↦
            ((c.pool.strands true).isDone && (c.pool.strands false).isDone, c.live,
              c.pool.state.pjsipAccMap.lookup 0,
                (c.pool.state.accounts.lookup "a").isNone)) =
      some (true, [0], some "a", true) := by decide
  rw [hs] at h
  obtain ⟨c, hc, hv⟩ := Option.map_eq_some_iff.mp h
  simp only [Prod.mk.injEq] at hv
  obtain ⟨hboth, hlive, hroute, hgone⟩ := hv
  obtain ⟨htrue, hfalse⟩ := Bool.and_eq_true_iff.mp hboth
  have hnone : c.pool.state.accounts.lookup "a" = none := Option.isNone_iff_eq_none.mp hgone
  refine ⟨s, c, hs, tidy_nothing howner hentries, hc, fun i ↦ by cases i <;> assumption, hlive,
    hroute, hnone, fun hfinal ↦ ?_⟩
  have howner' : ownedBy "a" c.pool.state = some 0 := (hfinal 0).2.mp hroute
  have hunowned : ownedBy "a" c.pool.state = none :=
    congrArg (Option.bind · Account.pjsipAccId) hnone
  rw [hunowned] at howner'
  cases howner'

end Runs

end PacketDial.System
