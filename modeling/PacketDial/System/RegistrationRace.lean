import PacketDial.System.AccountStrands

/-!
# Registration callbacks next to account commands

PJSIP's worker thread delivers registration callbacks for an account while `AccountRegister` has
the id from `pd_acc_add` but has not entered it in `PJSIP_ACC_MAP`, and while `AccountUnregister`
has taken the id but not removed it from there. Callbacks that do not find their account are lost;
those that still do overwrite the state.
-/

namespace PacketDial.System

open PacketDial.Core PacketDial.Lib

/-- A command, under `true`, and PJSIP's worker thread. -/
abbrev AccountRace := Pool Bool Env Engine Action AccountMark

/-- The registration state of an account that is there. -/
def regStateOf (id : String) (s : Engine) : Option RegistrationState :=
  (s.accounts.lookup id).map (·.regState)

/-- `AccountRegister` at `pd_acc_add`, next to callbacks for the id that it returns. -/
def registerRace (s : Engine) (id : String) (args : AccAddArgs) (pjAccId : Int)
    (reports : List RegReport) : AccountRace where
  state := s
  strands i := if i then discard (addStrand id args) else workerStrand pjAccId reports
  log := []
  trace := []

section Steps

variable {id : String} {pjAccId : Int} {s s' : Engine} {e : Env} {t : List Action}

/-- Steady steps change no registration state. -/
theorem Steady.sameState {held : List Mutex} (h : Steady held s t s') (id : String) :
    regStateOf id s' = regStateOf id s :=
  congrArg (fun T : AccountTables ↦ (T.accounts.lookup id).map Account.regState) h.1

/-- Steady steps change no route. -/
theorem Steady.sameRoute {held : List Mutex} (h : Steady held s t s') (pjAccId : Int) :
    s'.pjsipAccMap.lookup pjAccId = s.pjsipAccMap.lookup pjAccId :=
  congrArg (fun T : AccountTables ↦ T.accMap.lookup pjAccId) h.1

/-- Writing a state into an account that is there. -/
theorem regStateOf_setRegState (id : String) (state : RegistrationState) (e : Env) (s : Engine) :
    regStateOf id ((withLock .accounts (setRegState id state)).run e s).state =
      (regStateOf id s).map fun _ ↦ state := by
  rw [run_withLock]
  dsimp only
  unfold setRegState regStateOf
  rw [Traced.run_bind, Traced.run_get]
  dsimp only
  cases hl : s.accounts.lookup id with
  | none =>
    dsimp only
    rw [Traced.run_pure, hl]
    rfl
  | some a => exact congrArg _ (AList.lookup_insert _)

/-- Writing a state changes no route. -/
theorem route_setRegState (id : String) (state : RegistrationState) (e : Env) (s : Engine) :
    ((withLock .accounts (setRegState id state)).run e s).state.pjsipAccMap = s.pjsipAccMap := by
  rw [run_withLock]
  dsimp only
  unfold setRegState
  rw [Traced.run_bind, Traced.run_get]
  dsimp only
  cases s.accounts.lookup id <;> rfl

/-- Storing an id changes no registration state. -/
theorem regStateOf_storePjsipAccId (id : String) (pjAccId : Int) (e : Env) (s : Engine) :
    regStateOf id ((storePjsipAccId id pjAccId).run e s).state = regStateOf id s := by
  unfold storePjsipAccId regStateOf
  rw [run_withLock]
  dsimp only
  rw [Traced.run_bind, Traced.run_get]
  dsimp only
  cases hl : s.accounts.lookup id with
  | none =>
    dsimp only
    rw [Traced.run_pure, hl]
  | some a =>
    have hinsert : AList.lookup id (AList.insert id { a with pjsipAccId := some pjAccId }
        s.accounts) = some { a with pjsipAccId := some pjAccId } := AList.lookup_insert _
    exact (congrArg (Option.map Account.regState) hinsert).trans rfl

/-- Storing an id changes no route. -/
theorem route_storePjsipAccId (id : String) (pjAccId : Int) (e : Env) (s : Engine) :
    ((storePjsipAccId id pjAccId).run e s).state.pjsipAccMap = s.pjsipAccMap := by
  unfold storePjsipAccId
  rw [run_withLock]
  dsimp only
  rw [Traced.run_bind, Traced.run_get]
  dsimp only
  cases s.accounts.lookup id <;> rfl

end Steps

section Worker

variable {pjAccId : Int} {rest : List RegReport} {r : RegReport}

/-- What the worker thread does next. -/
def WorkerNext (pjAccId : Int) : List RegReport → AccountStrand Unit → Prop
  | [], u => u = .done ()
  | r :: rest, u => u = lookStrand pjAccId r r.text >>= fun _ ↦ workerStrand pjAccId rest

/-- The worker thread is about to deliver the callbacks `rest`. -/
abbrev Delivers (pjAccId : Int) (rest : List RegReport) : AccountStrand Unit → Prop :=
  Strand.Until (Steady []) (WorkerNext pjAccId rest)

/-- The reason has a text, whatever is logged about it. -/
theorem reasonText_value (callback : String) (r : RegReport) (e : Env) (s : Engine) :
    ((reasonText callback r.reason).run e s).value = r.text := by
  unfold reasonText RegReport.text
  cases r.reason with
  | invalidUtf8 =>
    dsimp only
    rw [Traced.run_bind, Traced.run_pure]
  | _ => rfl

/-- The worker thread at the start of a callback. -/
theorem delivers_workerStrand : Delivers pjAccId rest (workerStrand pjAccId rest) := by
  cases rest with
  | nil => exact .here rfl
  | cons r rest =>
    exact Strand.until_plain_eq_bind (tame_reasonText (by decide) _ _) (reasonText_value _ r)
      (.here rfl)

/-- The worker thread after a callback whose account is not known. -/
theorem delivers_unknown (text : String) :
    Delivers pjAccId rest (Strand.plain (logEngine .warn text) >>= fun _ ↦
      workerStrand pjAccId rest) :=
  Strand.until_plain_bind (tame_logEngine canLog_nil _ _) fun _ ↦ delivers_workerStrand

/-- The worker thread after a callback has written the state. -/
theorem delivers_recorded (id text : String) (state : RegistrationState) :
    Delivers pjAccId rest (Strand.plain (pushRegState id state) >>= fun _ ↦
      Strand.plain (logEngine .info text) >>= fun _ ↦ workerStrand pjAccId rest) :=
  Strand.until_plain_bind (tame_pushRegState canLog_nil.2 (by decide) _ _) fun _ ↦
    Strand.until_plain_bind (tame_logEngine canLog_nil _ _) fun _ ↦ delivers_workerStrand

variable {c c' : AccountRace} {e : Env} {id : String}

/-- A worker thread with callbacks left is not done. -/
theorem Delivers.eq_nil {u : AccountStrand Unit} (h : Delivers pjAccId rest u)
    (hdone : u.isDone = true) : rest = [] := by
  cases h with
  | here h =>
    cases rest with
    | nil => rfl
    | cons r rest =>
      rw [show u = _ from h] at hdone
      cases hdone
  | plain hx hP hk => cases hdone

/-- A step of the worker thread towards its next look-up, or that look-up. -/
theorem step_delivers (hworker : Delivers pjAccId rest (c.strands false))
    (hs : c.step (false, e) = some c') :
    (Delivers pjAccId rest (c'.strands false) ∧ c'.log = c.log ∧
      ∃ t, Steady [] c.state t c'.state) ∨
    ∃ r rest', rest = r :: rest' ∧ c'.state = c.state ∧ c'.log = c.log ++ [(false, .looked r)] ∧
      (c.state.pjsipAccMap.lookup pjAccId = none → Delivers pjAccId rest' (c'.strands false)) ∧
      ∀ id, c.state.pjsipAccMap.lookup pjAccId = some id → c'.strands false =
        recordStrand r r.text id >>= fun _ ↦ workerStrand pjAccId rest' := by
  by_cases hnext : WorkerNext pjAccId rest (c.strands false)
  · cases rest with
    | nil =>
      have hdone : c.step (false, e) = none := Pool.step_done hnext
      rw [hdone] at hs
      cases hs
    | cons r rest' =>
      refine Or.inr ⟨r, rest', rfl, ?_⟩
      rw [Pool.step_eq (m := (false, e)) hnext hs]
      have hvalue : ((routeReport pjAccId).run e c.state).value =
          c.state.pjsipAccMap.lookup pjAccId := rfl
      refine ⟨rfl, rfl, fun hroute ↦ ?_, fun id hroute ↦ ?_⟩
      · rw [Pool.advance_self, hvalue, hroute]
        exact delivers_unknown _
      · rw [Pool.advance_self, hvalue, hroute]
        rfl
  · obtain ⟨hworker', hlog, t, hsteady, -⟩ := Pool.step_until hworker hs hnext
    exact Or.inl ⟨hworker', hlog, t, hsteady⟩

/-- The step in which the worker thread writes the state. -/
theorem step_records (hworker : c.strands false =
      recordStrand r r.text id >>= fun _ ↦ workerStrand pjAccId rest)
    (hs : c.step (false, e) = some c') :
    Delivers pjAccId rest (c'.strands false) ∧ c'.log = c.log ++ [(false, .recorded r)] ∧
      regStateOf id c'.state = (regStateOf id c.state).map (fun _ ↦ r.state) ∧
      c'.state.pjsipAccMap = c.state.pjsipAccMap := by
  rw [Pool.step_eq (m := (false, e)) hworker hs]
  refine ⟨?_, rfl, regStateOf_setRegState id _ e c.state, route_setRegState id _ e c.state⟩
  rw [Pool.advance_self]
  exact delivers_recorded _ _ _

end Worker

section Register

variable {id : String} {args : AccAddArgs} {pjAccId : Int} {reports rest : List RegReport}
  {r last : RegReport} {c c' : AccountRace} {e : Env} {s : Engine}

/-- How far `AccountRegister` has come before it enters the id. -/
inductive BeforeMapping (id : String) (args : AccAddArgs) (pjAccId : Int) :
    AccountStrand Unit → Prop
  | add : BeforeMapping id args pjAccId (discard (addStrand id args))
  | store : BeforeMapping id args pjAccId (discard (startedStrand id pjAccId))
  | map : BeforeMapping id args pjAccId (discard (mapStrand id pjAccId))

/-- A command that has not entered the id is not done. -/
theorem BeforeMapping.not_done {u : AccountStrand Unit} (h : BeforeMapping id args pjAccId u) :
    u.isDone = false := by
  cases h <;> rfl

/-- The command has entered the id, what is left matters to no one. -/
abbrev Ends : AccountStrand Unit → Prop := Strand.Until (Steady []) (· = .done ())

/-- The race of a registration with its callbacks, by how far it has come. -/
inductive Registering (id : String) (args : AccAddArgs) (pjAccId : Int) (reports : List RegReport)
    (c : AccountRace) : Prop
  /-- The id has no route: callbacks are lost. -/
  | unmapped {rest : List RegReport} (hlog : (true, .mapped pjAccId) ∉ c.log)
      (hroute : c.state.pjsipAccMap.lookup pjAccId = none)
      (hstate : regStateOf id c.state = some .registering)
      (hcommand : BeforeMapping id args pjAccId (c.strands true))
      (hrest : rest <:+ reports) (hworker : Delivers pjAccId rest (c.strands false))
  /-- The id has a route that no callback has used yet. -/
  | waiting {rest : List RegReport} (hlog : (true, .mapped pjAccId) ∈ c.log)
      (hnone : ∀ r, ¬ Before (true, .mapped pjAccId) (false, .looked r) c.log)
      (hroute : c.state.pjsipAccMap.lookup pjAccId = some id)
      (hstate : regStateOf id c.state = some .registering) (hcommand : Ends (c.strands true))
      (hrest : rest <:+ reports) (hworker : Delivers pjAccId rest (c.strands false))
  /-- A callback has found its account. -/
  | recording {r : RegReport} {rest : List RegReport}
      (hsome : ∃ r, Before (true, .mapped pjAccId) (false, .looked r) c.log)
      (hroute : c.state.pjsipAccMap.lookup pjAccId = some id)
      (hstate : (regStateOf id c.state).isSome) (hcommand : Ends (c.strands true))
      (hrest : r :: rest <:+ reports) (hworker : c.strands false =
        recordStrand r r.text id >>= fun _ ↦ workerStrand pjAccId rest)
  /-- A callback has written the state. -/
  | recorded {r : RegReport} {rest : List RegReport}
      (hsome : ∃ r, Before (true, .mapped pjAccId) (false, .looked r) c.log)
      (hroute : c.state.pjsipAccMap.lookup pjAccId = some id)
      (hstate : regStateOf id c.state = some r.state) (hcommand : Ends (c.strands true))
      (hrest : r :: rest <:+ reports) (hworker : Delivers pjAccId rest (c.strands false))

/-- A step of the worker thread. -/
theorem registering_worker (h : Registering id args pjAccId reports c)
    (hs : c.step (false, e) = some c') : Registering id args pjAccId reports c' := by
  have hother : c'.strands true = c.strands true := Pool.step_other hs (by simp)
  cases h with
  | unmapped hlog hroute hstate hcommand hrest hworker =>
    rw [← hother] at hcommand
    rcases step_delivers hworker hs with ⟨hworker', hlog', t, hsteady⟩ |
      ⟨r, rest', rfl, hsame, hlog', hnone, -⟩
    · refine .unmapped ?_ ((hsteady.sameRoute _).trans hroute) ((hsteady.sameState _).trans hstate)
        hcommand hrest hworker'
      rwa [hlog']
    · refine .unmapped ?_ (by rwa [hsame]) (by rwa [hsame]) hcommand
        ((List.suffix_cons _ _).trans hrest) (hnone hroute)
      simpa [hlog'] using hlog
  | waiting hlog hnone hroute hstate hcommand hrest hworker =>
    rw [← hother] at hcommand
    rcases step_delivers hworker hs with ⟨hworker', hlog', t, hsteady⟩ |
      ⟨r, rest', rfl, hsame, hlog', -, hfound⟩
    · exact .waiting (by rwa [hlog']) (by rwa [hlog']) ((hsteady.sameRoute _).trans hroute)
        ((hsteady.sameState _).trans hstate) hcommand hrest hworker'
    · refine .recording ⟨r, ?_⟩ (by rwa [hsame]) (by rw [hsame, hstate]; rfl) hcommand hrest
        (hfound id hroute)
      rw [hlog', before_concat]
      exact Or.inr ⟨rfl, hlog⟩
  | recording hsome hroute hstate hcommand hrest hworker =>
    rw [← hother] at hcommand
    obtain ⟨hworker', hlog', hstate', hmap⟩ := step_records hworker hs
    obtain ⟨r', hr'⟩ := hsome
    refine .recorded ⟨r', ?_⟩ (by rwa [hmap]) ?_ hcommand hrest hworker'
    · rw [hlog', before_concat]
      exact Or.inl hr'
    · obtain ⟨state, hstate⟩ := Option.isSome_iff_exists.mp hstate
      rw [hstate', hstate]
      rfl
  | recorded hsome hroute hstate hcommand hrest hworker =>
    rw [← hother] at hcommand
    rcases step_delivers hworker hs with ⟨hworker', hlog', t, hsteady⟩ |
      ⟨r, rest', rfl, hsame, hlog', -, hfound⟩
    · exact .recorded (by rwa [hlog']) ((hsteady.sameRoute _).trans hroute)
        ((hsteady.sameState _).trans hstate) hcommand hrest hworker'
    · obtain ⟨r', hr'⟩ := hsome
      refine .recording ⟨r', ?_⟩ (by rwa [hsame]) (by rw [hsame, hstate]; rfl) hcommand
        ((List.suffix_cons _ _).trans hrest) (hfound id hroute)
      rw [hlog', before_concat]
      exact Or.inl hr'

/-- A step of the command. -/
theorem registering_command (hpos : 0 ≤ pjAccId) (h : Registering id args pjAccId reports c)
    (hadd : e.rc (.pdAccAdd args) = pjAccId) (hs : c.step (true, e) = some c') :
    Registering id args pjAccId reports c' := by
  have hother : c'.strands false = c.strands false := Pool.step_other hs (by simp)
  have ending (h : Ends (c.strands true)) :
      Ends (c'.strands true) ∧ c'.log = c.log ∧ ∃ t, Steady [] c.state t c'.state := by
    by_cases hdone : c.strands true = .done ()
    · have hnone : c.step (true, e) = none := Pool.step_done hdone
      rw [hnone] at hs
      cases hs
    · obtain ⟨hends, hlog, t, hsteady, -⟩ := Pool.step_until (m := (true, e)) h hs hdone
      exact ⟨hends, hlog, t, hsteady⟩
  cases h with
  | unmapped hlog hroute hstate hcommand hrest hworker =>
    rw [← hother] at hworker
    generalize hu : c.strands true = u at hcommand
    cases hcommand with
    | add =>
      have hvalue : ((shim (.pdAccAdd args)).run e c.state).value = pjAccId := hadd
      have hc' := Pool.step_eq (m := (true, e)) hu hs
      rw [hvalue, if_neg (by omega)] at hc'
      have hstrand : c'.strands true = discard (startedStrand id pjAccId) := by
        have hbranch : (if pjAccId < 0 then Strand.plain (registerFailed id)
            else startedStrand id pjAccId) = startedStrand id pjAccId := if_neg (by omega)
        rw [hc', Pool.advance_self, ← hbranch]
        rfl
      have hlog' : c'.log = c.log ++ [(true, .added pjAccId)] := by rw [hc']; rfl
      have hsame : c'.state = c.state := by rw [hc']; rfl
      refine .unmapped ?_ (by rwa [hsame]) (by rwa [hsame]) (hstrand ▸ .store) hrest hworker
      simpa [hlog'] using hlog
    | store =>
      have hc' := Pool.step_eq (m := (true, e)) hu hs
      have hstrand : c'.strands true = discard (mapStrand id pjAccId) := by
        rw [hc', Pool.advance_self]
        rfl
      have hlog' : c'.log = c.log ++ [(true, .stored pjAccId)] := by rw [hc']; rfl
      have hstate' : c'.state = ((storePjsipAccId id pjAccId).run e c.state).state := by
        rw [hc']
        rfl
      refine .unmapped ?_ ?_ ?_ (hstrand ▸ .map) hrest hworker
      · simpa [hlog'] using hlog
      · rwa [hstate', route_storePjsipAccId]
      · rwa [hstate', regStateOf_storePjsipAccId]
    | map =>
      have hc' := Pool.step_eq (m := (true, e)) hu hs
      have hends : Ends (c'.strands true) := by
        rw [hc', Pool.advance_self]
        exact Strand.until_plain_bind (tame_logEngine canLog_nil _ _) fun _ ↦ .here rfl
      have hlog' : c'.log = c.log ++ [(true, .mapped pjAccId)] := by rw [hc']; rfl
      have hmap : c'.state.pjsipAccMap = c.state.pjsipAccMap.insert pjAccId id := by
        rw [hc']
        rfl
      have hstate' : regStateOf id c'.state = regStateOf id c.state := by
        rw [hc']
        rfl
      refine .waiting (by simp [hlog']) (fun r hr ↦ ?_) ?_ (hstate'.trans hstate) hends hrest
        hworker
      · rw [hlog', before_concat] at hr
        rcases hr with hr | ⟨hr, -⟩
        · exact hlog (hr.subset (List.mem_cons_self ..))
        · cases hr
      · rw [hmap, AList.lookup_insert]
  | waiting hlog hnone hroute hstate hcommand hrest hworker =>
    obtain ⟨hends, hlog', t, hsteady⟩ := ending hcommand
    rw [← hother] at hworker
    exact .waiting (by rwa [hlog']) (by rwa [hlog']) ((hsteady.sameRoute _).trans hroute)
      ((hsteady.sameState _).trans hstate) hends hrest hworker
  | recording hsome hroute hstate hcommand hrest hworker =>
    obtain ⟨hends, hlog', t, hsteady⟩ := ending hcommand
    rw [← hother] at hworker
    exact .recording (by rwa [hlog']) ((hsteady.sameRoute _).trans hroute)
      (by rwa [hsteady.sameState]) hends hrest hworker
  | recorded hsome hroute hstate hcommand hrest hworker =>
    obtain ⟨hends, hlog', t, hsteady⟩ := ending hcommand
    rw [← hother] at hworker
    exact .recorded (by rwa [hlog']) ((hsteady.sameRoute _).trans hroute)
      ((hsteady.sameState _).trans hstate) hends hrest hworker

/-- No report means `Registering`. -/
theorem RegReport.state_ne_registering (r : RegReport) : r.state ≠ .registering := by
  unfold RegReport.state reportedRegState
  split_ifs <;> simp

/-- The account is `Registering` when the transition is done. -/
theorem regStateOf_beginRegistration {acct : Account} (hfound : s.accounts.lookup id = some acct)
    (e : Env) : regStateOf id ((beginRegistration id acct).run e s).state = some .registering := by
  have hyields : accountTables ((beginRegistration id acct).run e s).state = _ :=
    (yields_beginRegistration (e := e) rfl hfound).2
  have hl := lookup_of_tables hyields id
  rw [AccountTables.unmapAcc_accounts, AccountTables.lookup_setAccount, if_pos rfl] at hl
  exact congrArg (Option.map Account.regState) hl

/-- After `AccountRegister` and all callbacks for the id that `pd_acc_add` returned, the account
has the state that the last callback reported if and only if some callback, and so the last, looked
its account up after the command had entered the id in `PJSIP_ACC_MAP`. -/
theorem registration_result_iff {acct : Account} {ms : List (Bool × Env)} (hpos : 0 ≤ pjAccId)
    (hfound : s.accounts.lookup id = some acct)
    (hfresh : ((beginRegistration id acct).run e s).state.pjsipAccMap.lookup pjAccId = none)
    (hlast : reports.getLast? = some last) (hadd : ∀ m ∈ ms, m.2.rc (.pdAccAdd args) = pjAccId)
    (run : ms.foldlM Pool.step (registerRace ((beginRegistration id acct).run e s).state id args
      pjAccId reports) = some c)
    (hdone : c.Finished) :
    regStateOf id c.state = some last.state ↔
      ∃ r, Before (true, .mapped pjAccId) (false, .looked r) c.log := by
  have initial : Registering id args pjAccId reports (registerRace
      ((beginRegistration id acct).run e s).state id args pjAccId reports) :=
    .unmapped List.not_mem_nil hfresh (regStateOf_beginRegistration hfound e) .add
      (List.suffix_refl _) delivers_workerStrand
  have final : Registering id args pjAccId reports c := by
    refine (Path.of_forall run hadd).invariant initial fun c m c' h hm hs ↦ ?_
    obtain ⟨i, e⟩ := m
    cases i with
    | true => exact registering_command hpos h hm hs
    | false => exact registering_worker h hs
  cases final with
  | unmapped _ _ _ hcommand _ _ =>
    have hnot := hcommand.not_done
    rw [hdone true] at hnot
    cases hnot
  | waiting _ hnone _ hstate _ _ _ =>
    rw [hstate]
    refine ⟨fun h ↦ ?_, fun ⟨r, hr⟩ ↦ absurd hr (hnone r)⟩
    exact absurd (Option.some.inj h).symm last.state_ne_registering
  | recording _ _ _ _ _ hworker =>
    have hnot := hdone false
    rw [hworker] at hnot
    cases hnot
  | recorded hsome _ hstate _ hrest hworker =>
    rw [hworker.eq_nil (hdone false)] at hrest
    obtain ⟨before, rfl⟩ := hrest
    rw [List.getLast?_concat] at hlast
    cases hlast
    exact ⟨fun _ ↦ hsome, fun _ ↦ hstate⟩

/-- The engine is initialised and has an account that is not registered. -/
def newAccount : List Input :=
  [⟨.init .null, quietEnv⟩, commandInput "AccountUpsert" [("uuid", .str "a")]]

/-- A final response: registered for an hour. -/
def accepted : RegReport := ⟨3600, 200, .null⟩

/-- The arguments of `pd_acc_add` for the new account. -/
def newAccountArgs : AccAddArgs where
  sipUri := "sip:@"
  registrar := "sip:"
  username := ""
  password := ""
  authUsername := ""
  sipProxy := ""
  useTcp := 0
  stunServer := ""
  publishPresence := 0
  displayName := ""

/-- The race of the registration of the new account with one response. -/
def newAccountRace (s : Engine) : AccountRace :=
  registerRace ((beginRegistration "a" (blankAccount "a")).run quietEnv s).state "a"
    newAccountArgs 0 [accepted]

/-- The order of the steps: `true` is the command. -/
def quietly (order : List Bool) : List (Bool × Env) := order.map (·, quietEnv)

/-- The new account is there, and the id 0 is not in use. -/
theorem exists_newAccount : ∃ s, newAccount.foldlM engineStep Engine.initial = some s ∧
    s.accounts.lookup "a" = some (blankAccount "a") ∧
    ((beginRegistration "a" (blankAccount "a")).run quietEnv s).state.pjsipAccMap.lookup 0 =
      none := by
  have h : (newAccount.foldlM engineStep Engine.initial).map (fun s ↦ (s.accounts.lookup "a",
      ((beginRegistration "a" (blankAccount "a")).run quietEnv s).state.pjsipAccMap.lookup 0)) =
        some (some (blankAccount "a"), none) := by decide
  obtain ⟨s, hs, hv⟩ := Option.map_eq_some_iff.mp h
  obtain ⟨hfound, hfresh⟩ := Prod.mk.inj hv
  exact ⟨s, hs, hfound, hfresh⟩

/-- A response after the command, as an instance. -/
theorem registration_result_iff_accepted :
    ∃ s c, newAccount.foldlM engineStep Engine.initial = some s ∧
      (quietly [true, true, true, true, false, false, false, false, false]).foldlM Pool.step
        (newAccountRace s) = some c ∧ regStateOf "a" c.state = some .registered := by
  obtain ⟨s, hs, hfound, hfresh⟩ := exists_newAccount
  have h : ((newAccount.foldlM engineStep Engine.initial).bind fun s ↦
      (quietly [true, true, true, true, false, false, false, false, false]).foldlM Pool.step
        (newAccountRace s)).map (fun c ↦ ((c.strands true).isDone, (c.strands false).isDone,
          c.log)) = some (true, true, [(true, .added 0), (true, .stored 0), (true, .mapped 0),
            (false, .looked accepted), (false, .recorded accepted)]) := by decide
  rw [hs] at h
  obtain ⟨c, hc, hv⟩ := Option.map_eq_some_iff.mp h
  obtain ⟨hcommand, hrest⟩ := Prod.mk.inj hv
  obtain ⟨hworker, hlog⟩ := Prod.mk.inj hrest
  have hadd : ∀ m ∈ quietly [true, true, true, true, false, false, false, false, false],
      m.2.rc (.pdAccAdd newAccountArgs) = 0 := by decide
  have hbefore : Before (true, .mapped 0) (false, .looked accepted) c.log := by
    rw [hlog]
    unfold Before
    decide
  refine ⟨s, c, hs, hc, ?_⟩
  exact (registration_result_iff le_rfl hfound hfresh rfl hadd hc
    fun i ↦ by cases i <;> assumption).mpr ⟨accepted, hbefore⟩

/-- A response that arrives between `pd_acc_add` and the insertion into `PJSIP_ACC_MAP` is lost: the
account stays `Registering`. -/
theorem registration_result_lost :
    ∃ s c, newAccount.foldlM engineStep Engine.initial = some s ∧
      accAddArgs (blankAccount "a") = .ok newAccountArgs ∧
      s.accounts.lookup "a" = some (blankAccount "a") ∧
      (quietly [true, false, false, false, true, true, true]).foldlM Pool.step
        (newAccountRace s) = some c ∧ c.Finished ∧
      regStateOf "a" c.state = some .registering ∧ accepted.state = .registered := by
  obtain ⟨s, hs, hfound, -⟩ := exists_newAccount
  have h : ((newAccount.foldlM engineStep Engine.initial).bind fun s ↦
      (quietly [true, false, false, false, true, true, true]).foldlM Pool.step
        (newAccountRace s)).map (fun c ↦ ((c.strands true).isDone, (c.strands false).isDone,
          regStateOf "a" c.state)) = some (true, true, some .registering) := by decide
  rw [hs] at h
  obtain ⟨c, hc, hv⟩ := Option.map_eq_some_iff.mp h
  obtain ⟨hcommand, hrest⟩ := Prod.mk.inj hv
  obtain ⟨hworker, hstate⟩ := Prod.mk.inj hrest
  exact ⟨s, c, hs, rfl, hfound, hc, fun i ↦ by cases i <;> assumption, hstate, by decide⟩

end Register

end PacketDial.System
