import PacketDial.System.AccountSpec

/-!
# Lock discipline

No command and no callback locks a mutex that its own thread already holds, whatever the
payload, the state and the answers of the shim, with one exception: when `pd_acc_add` fails,
`cmd_account_register` still holds `ACCOUNTS` while `push_reg_state` locks it again.
-/

namespace PacketDial.System

open PacketDial.Core PacketDial.Lib

/-- Every command but `AccountRegister` is lawful. -/
theorem lawful_dispatchCommand {cmd : String} (p : Json) (hreg : cmd ≠ "AccountRegister") :
    Traced.Admits (Lawful []) (dispatchCommand cmd p) := by
  have lenient : Lenient accountView Lawful := inferInstance
  by_cases hcmd : cmd ∈ callCommands
  · exact mild_callCommand p hcmd (fun _ ↦ lenient) fun _ ↦ inferInstance
  · exact tame_dispatchCommand p hcmd hreg fun _ ↦ inferInstance

section Callbacks

/-- The operations that PJSIP makes: its callbacks. -/
def isCallback : Op → Bool
  | .onLog .. | .onRegState .. | .onIncomingCall .. | .onCallState .. | .onCallMedia ..
  | .onSipMsg .. | .onTransferStatus .. | .onBlfStatus .. => true
  | _ => false

/-- Every callback is admitted by the families that let the shim be called under locks. -/
theorem admits_callback {R : Family} [∀ held, Traced.Composable (R held)] [Discreet callView R]
    [Discreet accountView R] [Lenient accountView R] {op : Op} (h : isCallback op = true) :
    Traced.Admits (R []) op.run := by
  cases op with
  | onIncomingCall pjAccId pjCallId fromUri => exact mild_pjsipOnIncomingCall _ _ _
  | onCallState pjCallId invState => exact mild_pjsipOnCallState _ _
  | onCallMedia pjCallId active => exact mild_pjsipOnCallMedia _ _
  | onLog level msg => exact tame_op rfl
  | onRegState pjAccId expires statusCode reason => exact tame_op rfl
  | onSipMsg pjCallId isTx msg => exact tame_op rfl
  | onTransferStatus pjCallId statusCode reason isFinal => exact tame_op rfl
  | onBlfStatus uri state activity => exact tame_op rfl
  | _ => cases h

/-- Every callback is lawful. -/
theorem lawful_callback {op : Op} (h : isCallback op = true) :
    Traced.Admits (Lawful []) op.run :=
  admits_callback h

end Callbacks

section Register

variable {held : List Mutex} {α β : Type} {e : Env} {s : Engine}

/-- The locks after a run. -/
def locksAfter (held : List Mutex) (x : Eng α) (e : Env) (s : Engine) : Option (List Mutex) :=
  heldAfter held (lockActs (x.run e s).trace)

/-- A lawful part that comes first leaves the locks as they were. -/
theorem locksAfter_bind {x : Eng α} (hx : Traced.Admits (Lawful held) x) (f : α → Eng β) :
    locksAfter held (x >>= f) e s =
      locksAfter held (f (x.run e s).value) e (x.run e s).state := by
  unfold locksAfter
  rw [Traced.run_bind, lockActs_append]
  exact GivesBack.replay_append (hx.run e s) _

/-- A lawful run keeps the locks. -/
theorem locksAfter_of_lawful {x : Eng α} (hx : Traced.Admits (Lawful held) x) :
    locksAfter held x e s = some held := hx.run e s

/-- What comes after a run that is stuck does not matter. -/
theorem locksAfter_bind_stuck {x : Eng α} (hx : locksAfter held x e s = none)
    (f : α → Eng β) : locksAfter held (x >>= f) e s = none := by
  unfold locksAfter heldAfter at hx ⊢
  rw [Traced.run_bind, lockActs_append, replay_append, hx]
  rfl

/-- A critical section of a lock that is held is stuck. -/
theorem locksAfter_withLock_held {m : Mutex} (hm : m ∈ held) (x : Eng α) :
    locksAfter held (withLock m x) e s = none := by
  unfold locksAfter heldAfter
  rw [lockActs_withLock, replay, if_neg (not_not_intro hm)]

/-- A critical section whose body is stuck is stuck. -/
theorem locksAfter_withLock_stuck {m : Mutex} {x : Eng α} (hm : m ∉ held)
    (hx : locksAfter (m :: held) x e s = none) : locksAfter held (withLock m x) e s = none := by
  unfold locksAfter heldAfter at hx ⊢
  rw [lockActs_withLock, replay, if_pos hm, replay_append, hx]
  rfl

/-- Pushing a registration state under `ACCOUNTS` is stuck. -/
theorem locksAfter_pushRegState (id : String) (state : RegistrationState) :
    locksAfter [.accounts] (pushRegState id state) e s = none :=
  locksAfter_bind_stuck (locksAfter_withLock_held (List.mem_singleton_self _) _) _

/-- The failure path of a registration is stuck. -/
theorem locksAfter_registerFailed (id : String) :
    locksAfter [] (registerFailed id) e s = none := by
  unfold registerFailed
  dsimp only
  apply locksAfter_bind_stuck
  apply locksAfter_withLock_stuck (by decide)
  rw [locksAfter_bind (tame_setRegState id _)]
  exact locksAfter_bind_stuck (locksAfter_pushRegState id _) _

/-- PJSIP refuses the account that an `AccountRegister` names. -/
def registrationFails (p : Json) (e : Env) (s : Engine) : Bool :=
  ((accountKey p).bind fun id ↦ (s.accounts.lookup id).bind fun acct ↦
    (accAddArgs acct).toOption).any fun args ↦ e.rc (.pdAccAdd args) < 0

/-- A registration is stuck just when PJSIP refuses the account. -/
theorem locksAfter_cmdAccountRegister (p : Json) :
    locksAfter [] (cmdAccountRegister p) e s =
      if registrationFails p e s then none else some [] := by
  unfold cmdAccountRegister registrationFails
  cases hkey : accountKey p with
  | none => rfl
  | some id =>
    dsimp only
    rw [locksAfter_bind (tame_lookupForRegister id), lookupForRegister_value]
    cases hacct : s.accounts.lookup id with
    | none =>
      rw [locksAfter_of_lawful (Traced.admits_pure _), Option.bind_some, hacct]
      rfl
    | some acct =>
      dsimp only
      rw [locksAfter_bind (tame_beginRegistration id acct), Option.bind_some,
        hacct, Option.bind_some]
      cases hargs : accAddArgs acct with
      | error what =>
        refine locksAfter_of_lawful ?_
        exact (tame_logEngine canLog_nil _ _).bind fun _ ↦ tame_pure _
      | ok args =>
        dsimp only
        rw [locksAfter_bind (lenient_shim (v := callView) rfl)]
        change locksAfter [] (if e.rc (.pdAccAdd args) < 0 then _ else _) e _ =
          if decide (e.rc (.pdAccAdd args) < 0) = true then none else some []
        by_cases hneg : e.rc (.pdAccAdd args) < 0
        · rw [if_pos hneg, if_pos (decide_eq_true hneg)]
          exact locksAfter_registerFailed id
        · rw [if_neg hneg, if_neg (by simpa using hneg)]
          exact locksAfter_of_lawful (tame_registerStarted id _)

end Register

/-- Commands keep the lock discipline except for an `AccountRegister` whose account PJSIP
refuses; callbacks always keep it. -/
theorem lock_discipline (e : Env) (s : Engine) :
    (∀ (cmd : String) (p : Json),
      heldAfter [] (lockActs ((dispatchCommand cmd p).run e s).trace) ≠ none ↔
        ¬ (cmd = "AccountRegister" ∧ registrationFails p e s = true)) ∧
    ∀ op : Op, isCallback op = true →
      heldAfter [] (lockActs (op.run.run e s).trace) ≠ none := by
  constructor
  · intro cmd p
    by_cases hreg : cmd = "AccountRegister"
    · subst hreg
      have hrun : lockActs ((dispatchCommand "AccountRegister" p).run e s).trace =
          lockActs ((cmdAccountRegister p).run e s).trace := by
        change lockActs ((Except.ok <$> cmdAccountRegister p).run e s).trace = _
        rw [Traced.run_map]
      have hlocks : heldAfter [] (lockActs ((cmdAccountRegister p).run e s).trace) = _ :=
        locksAfter_cmdAccountRegister p
      rw [hrun, hlocks]
      cases registrationFails p e s <;> simp
    · rw [show heldAfter [] _ = some [] from (lawful_dispatchCommand p hreg).run e s]
      simp [hreg]
  · intro op hop
    rw [show heldAfter [] _ = some [] from (lawful_callback hop).run e s]
    exact Option.some_ne_none _

/-- A log line of PJSIP, as an instance. -/
theorem lock_discipline_onLog :
    heldAfter [] (lockActs ((Op.onLog 1 (.text "x")).run.run quietEnv Engine.initial).trace) ≠
      none :=
  (lock_discipline quietEnv Engine.initial).2 (.onLog 1 (.text "x")) rfl

/-- The failure path of a registration waits for `ACCOUNTS`, which its own thread holds. -/
theorem register_relocks :
    ∃ s, signIn.foldlM engineStep Engine.initial = some s ∧
      heldAfter [] (lockActs ((dispatchCommand "AccountRegister" (.obj [("uuid", .str "a")])).run
        { quietEnv with rc := fun _ ↦ -1 } s).trace) = none := by
  have h : (signIn.foldlM engineStep Engine.initial).map (fun s ↦
      heldAfter [] (lockActs ((dispatchCommand "AccountRegister" (.obj [("uuid", .str "a")])).run
        { quietEnv with rc := fun _ ↦ -1 } s).trace)) = some none := by decide
  obtain ⟨s, hs, hlocks⟩ := Option.map_eq_some_iff.mp h
  exact ⟨s, hs, hlocks⟩

end PacketDial.System
