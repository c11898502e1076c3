import PacketDial.System.RegistrationRace

/-!
# Registration callbacks next to `AccountUnregister`

The route of an id stays until `pd_acc_remove` has returned, so a callback may still overwrite the
state that the command set; and the answer to the un-REGISTER, which has `expires` 0, counts as a
failure.
-/

namespace PacketDial.System

open PacketDial.Core PacketDial.Lib

/-- The PJSIP id that an account claims. -/
def claimOf (id : String) (s : Engine) : Option Int := (s.accounts.lookup id).bind (·.pjsipAccId)

/-- `AccountUnregister` next to callbacks for the PJSIP id of the account. -/
def unregisterRace (s : Engine) (p : Json) (pjAccId : Int) (reports : List RegReport) :
    AccountRace where
  state := s
  strands i := if i then discard (unregisterStrand p) else workerStrand pjAccId reports
  log := []
  trace := []

/-- A 2xx response. -/
def RegReport.succeeded (r : RegReport) : Prop := 200 ≤ r.statusCode ∧ r.statusCode < 300

/-- The steps that write the state of the account. -/
def writes : Bool × AccountMark → Bool
  | (_, .took _) | (_, .recorded _) => true
  | _ => false

/-- The last step that wrote the state of the account. -/
def lastWrite (log : List (Bool × AccountMark)) : Option (Bool × AccountMark) :=
  (log.filter writes).getLast?

/-- The state that a step wrote. -/
def writtenState : Bool × AccountMark → RegistrationState
  | (_, .recorded r) => r.state
  | _ => .unregistered

section Reports

/-- Of the 2xx responses those with `expires` 0 count as failures. -/
theorem RegReport.failed_iff {r : RegReport} (h : r.succeeded) :
    (∃ text, r.state = .failed text) ↔ r.expires = 0 := by
  obtain ⟨hle, hlt⟩ := h
  unfold RegReport.state reportedRegState
  split_ifs with h₁ h₂
  · simp
    omega
  · simp
    omega
  · simp
    omega

end Reports

section Writes

variable {log : List (Bool × AccountMark)} {x : Bool × AccountMark}

/-- A step that does not write the state. -/
theorem lastWrite_concat_of_not (h : writes x = false) :
    lastWrite (log ++ [x]) = lastWrite log := by
  unfold lastWrite
  rw [List.filter_append, List.filter_singleton, h, cond_false, List.append_nil]

/-- A step that writes the state. -/
theorem lastWrite_concat (h : writes x = true) : lastWrite (log ++ [x]) = some x := by
  unfold lastWrite
  rw [List.filter_append, List.filter_singleton, h, cond_true, List.getLast?_concat]

/-- Where a step wrote the state, some step did so last. -/
theorem lastWrite_ne_none (hx : x ∈ log) (h : writes x = true) : lastWrite log ≠ none := by
  unfold lastWrite
  rw [Ne, List.getLast?_eq_none_iff]
  exact List.ne_nil_of_mem (List.mem_filter.mpr ⟨hx, h⟩)

end Writes

section Invariant

variable {p : Json} {id : String} {pjAccId : Int} {log : List (Bool × AccountMark)}
  {u : AccountStrand Unit} {c c' : AccountRace} {e : Env}

/-- `AccountUnregister` where the PJSIP account is removed. -/
def unmapStrand (id : String) (pjAccId : Int) : AccountStrand EngineErrorCode := do
  Strand.marked (.unmapped pjAccId) (withLock .pjsipAccMap (removePjsipAcc pjAccId))
  Strand.plain (logEngine .info s!"Account '{id}' unregistered via PJSIP (pj_acc_id={pjAccId})")
  Strand.plain (pushRegState id .unregistered)
  return .ok

/-- How far `AccountUnregister` has come. -/
inductive UnregisterAt (p : Json) (id : String) (pjAccId : Int) (log : List (Bool × AccountMark)) :
    AccountStrand Unit → Prop
  | take (hmapped : (true, .unmapped pjAccId) ∉ log) (htook : (true, .took (some pjAccId)) ∉ log) :
      UnregisterAt p id pjAccId log (discard (unregisterStrand p))
  | remove (hmapped : (true, .unmapped pjAccId) ∉ log)
      (htook : (true, .took (some pjAccId)) ∈ log) :
      UnregisterAt p id pjAccId log (discard (unregisteredStrand id (some pjAccId)))
  | unmap (hmapped : (true, .unmapped pjAccId) ∉ log)
      (htook : (true, .took (some pjAccId)) ∈ log) :
      UnregisterAt p id pjAccId log (discard (unmapStrand id pjAccId))
  | ends {u : AccountStrand Unit} (hmapped : (true, .unmapped pjAccId) ∈ log)
      (htook : (true, .took (some pjAccId)) ∈ log) (hends : Ends u) :
      UnregisterAt p id pjAccId log u

/-- Where the worker thread is: the callbacks that looked their account up before the command
removed the route are those that wrote, or are about to write, the state. -/
inductive ReportsAt (id : String) (pjAccId : Int) (log : List (Bool × AccountMark)) :
    AccountStrand Unit → Prop
  | delivers {rest : List RegReport} {u : AccountStrand Unit}
      (hlog : ∀ r, Without (false, .looked r) (true, .unmapped pjAccId) log ↔
        (false, .recorded r) ∈ log)
      (hworker : Delivers pjAccId rest u) : ReportsAt id pjAccId log u
  | records {r : RegReport} {rest : List RegReport}
      (hlog : ∀ r', Without (false, .looked r') (true, .unmapped pjAccId) log ↔
        (false, .recorded r') ∈ log ∨ r' = r) :
      ReportsAt id pjAccId log (recordStrand r r.text id >>= fun _ ↦ workerStrand pjAccId rest)

/-- The race of an `AccountUnregister` with callbacks. -/
structure Unregistering (p : Json) (id : String) (pjAccId : Int) (c : AccountRace) : Prop where
  command : UnregisterAt p id pjAccId c.log (c.strands true)
  worker : ReportsAt id pjAccId c.log (c.strands false)
  routed : (true, .unmapped pjAccId) ∉ c.log → c.state.pjsipAccMap.lookup pjAccId = some id
  unrouted : (true, .unmapped pjAccId) ∈ c.log → c.state.pjsipAccMap.lookup pjAccId = none
  claimed : (true, .took (some pjAccId)) ∉ c.log → claimOf id c.state = some pjAccId
  present : (regStateOf id c.state).isSome
  written : ∀ x, lastWrite c.log = some x → regStateOf id c.state = some (writtenState x)

/-- The worker thread makes an entry. -/
theorem UnregisterAt.worker (h : UnregisterAt p id pjAccId log u) (mark : AccountMark) :
    UnregisterAt p id pjAccId (log ++ [(false, mark)]) u := by
  cases h with
  | take hmapped htook => exact .take (by simpa using hmapped) (by simpa using htook)
  | remove hmapped htook => exact .remove (by simpa using hmapped) (by simpa using htook)
  | unmap hmapped htook => exact .unmap (by simpa using hmapped) (by simpa using htook)
  | ends hmapped htook hends => exact .ends (by simpa using hmapped) (by simpa using htook) hends

/-- The command makes an entry. -/
theorem ReportsAt.command (h : ReportsAt id pjAccId log u) (mark : AccountMark) :
    ReportsAt id pjAccId (log ++ [(true, mark)]) u := by
  cases h with
  | delivers hlog hworker =>
    refine .delivers (fun r ↦ ?_) hworker
    rw [without_concat, hlog]
    simp
  | records hlog =>
    refine .records fun r ↦ ?_
    rw [without_concat, hlog]
    simp

/-- A steady step of one thread. -/
theorem Unregistering.steady (h : Unregistering p id pjAccId c) {t : List Action}
    (hlog : c'.log = c.log) (hsteady : Steady [] c.state t c'.state)
    (hcommand : UnregisterAt p id pjAccId c.log (c'.strands true))
    (hworker : ReportsAt id pjAccId c.log (c'.strands false)) :
    Unregistering p id pjAccId c' where
  command := by rwa [hlog]
  worker := by rwa [hlog]
  routed hmapped := by
    rw [hsteady.sameRoute]
    exact h.routed (by rwa [← hlog])
  unrouted hmapped := by
    rw [hsteady.sameRoute]
    exact h.unrouted (by rwa [← hlog])
  claimed htook := by
    have hsame : claimOf id c'.state = claimOf id c.state :=
      congrArg (fun T : AccountTables ↦ (T.accounts.lookup id).bind Account.pjsipAccId) hsteady.1
    rw [hsame]
    exact h.claimed (by rwa [← hlog])
  present := by
    rw [hsteady.sameState]
    exact h.present
  written x hx := by
    rw [hsteady.sameState]
    exact h.written x (by rwa [← hlog])

/-- Writing a state keeps the claim. -/
theorem claimOf_setRegState (id : String) (state : RegistrationState) (e : Env) (s : Engine) :
    claimOf id ((withLock .accounts (setRegState id state)).run e s).state = claimOf id s := by
  rw [run_withLock]
  dsimp only
  unfold setRegState claimOf
  rw [Traced.run_bind, Traced.run_get]
  dsimp only
  cases hl : s.accounts.lookup id with
  | none =>
    dsimp only
    rw [Traced.run_pure, hl]
  | some a =>
    have hinsert : AList.lookup id (AList.insert id { a with regState := state } s.accounts) =
        some { a with regState := state } := AList.lookup_insert _
    exact (congrArg (Option.bind · Account.pjsipAccId) hinsert).trans rfl

/-- A step of the worker thread. -/
theorem unregistering_worker (h : Unregistering p id pjAccId c) (hs : c.step (false, e) = some c') :
    Unregistering p id pjAccId c' := by
  have hother : c'.strands true = c.strands true := Pool.step_other hs (by simp)
  have hcommand := h.command
  rw [← hother] at hcommand
  have hworker := h.worker
  generalize hu : c.strands false = u at hworker
  cases hworker with
  | @delivers rest u hlog hworker =>
    rw [← hu] at hworker
    rcases step_delivers hworker hs with ⟨hworker', hlog', t, hsteady⟩ |
      ⟨r, rest', rfl, hsame, hlog', hnone, hfound⟩
    · exact h.steady hlog' hsteady hcommand (.delivers hlog hworker')
    · have hlast : lastWrite c'.log = lastWrite c.log := by
        rw [hlog', lastWrite_concat_of_not rfl]
      refine ⟨by rw [hlog']; exact hcommand.worker _, ?_, ?_, ?_, ?_, ?_, ?_⟩
      · by_cases hmapped : (true, .unmapped pjAccId) ∈ c.log
        · refine .delivers (fun r' ↦ ?_) (hnone (h.unrouted hmapped))
          rw [hlog', without_concat, hlog]
          simp [hmapped]
        · rw [hfound id (h.routed hmapped), hlog']
          refine .records fun r' ↦ ?_
          rw [without_concat, hlog]
          simp [hmapped]
      · simpa [hlog', hsame] using h.routed
      · simpa [hlog', hsame] using h.unrouted
      · simpa [hlog', hsame] using h.claimed
      · simpa [hsame] using h.present
      · simpa [hlast, hsame] using h.written
  | @records r rest hlog =>
    obtain ⟨hworker', hlog', hstate, hmap⟩ := step_records hu hs
    have hclaim : claimOf id c'.state = claimOf id c.state := by
      rw [Pool.step_eq (m := (false, e)) hu hs]
      exact claimOf_setRegState id _ e c.state
    obtain ⟨state, hpresent⟩ := Option.isSome_iff_exists.mp h.present
    rw [hpresent] at hstate
    refine ⟨by rw [hlog']; exact hcommand.worker _, .delivers (fun r' ↦ ?_) hworker', ?_, ?_, ?_,
      by rw [hstate]; rfl, ?_⟩
    · rw [hlog', without_concat, hlog]
      simp
    · simpa [hlog', hmap] using h.routed
    · simpa [hlog', hmap] using h.unrouted
    · simpa [hlog', hclaim] using h.claimed
    · intro x hx
      rw [hlog', lastWrite_concat rfl] at hx
      cases hx
      exact hstate

/-- What the command reads and writes where the account is there. -/
theorem takeForUnregister_run {a : Account} {s : Engine} (hl : s.accounts.lookup id = some a)
    (e : Env) :
    ((takeForUnregister id).run e s).value = (true, a.pjsipAccId) ∧
      regStateOf id ((takeForUnregister id).run e s).state = some .unregistered ∧
      ((takeForUnregister id).run e s).state.pjsipAccMap = s.pjsipAccMap := by
  have hinsert : AList.lookup id (AList.insert id
      { a with pjsipAccId := none, regState := .unregistered } s.accounts) =
        some { a with pjsipAccId := none, regState := .unregistered } := AList.lookup_insert _
  unfold takeForUnregister takePjsipAccId
  rw [run_withLock, Traced.run_bind, Traced.run_get]
  dsimp only
  rw [Traced.run_bind, Traced.run_bind, Traced.run_get]
  dsimp only
  rw [hl]
  exact ⟨rfl, (congrArg (Option.map Account.regState) hinsert).trans rfl, rfl⟩

/-- A step of the command. -/
theorem unregistering_command (hkey : accountKey p = some id) (h : Unregistering p id pjAccId c)
    (hs : c.step (true, e) = some c') : Unregistering p id pjAccId c' := by
  have hother : c'.strands false = c.strands false := Pool.step_other hs (by simp)
  have hworker := h.worker
  rw [← hother] at hworker
  have hcommand := h.command
  generalize hu : c.strands true = u at hcommand
  cases hcommand with
  | take hmapped htook =>
    obtain ⟨a, hl, hclaim⟩ := Option.bind_eq_some_iff.mp (h.claimed htook)
    obtain ⟨hvalue, hstate, hmap⟩ := takeForUnregister_run hl e
    rw [hclaim] at hvalue
    unfold unregisterStrand at hu
    rw [hkey] at hu
    have hc' := Pool.step_eq (m := (true, e)) hu hs
    rw [hvalue] at hc'
    have hlog' : c'.log = c.log ++ [(true, .took (some pjAccId))] := by rw [hc']; rfl
    have hstrand : c'.strands true = discard (unregisteredStrand id (some pjAccId)) := by
      rw [hc', Pool.advance_self]
      rfl
    have hstate' : regStateOf id c'.state = some .unregistered := by rw [hc']; exact hstate
    have hmap' : c'.state.pjsipAccMap = c.state.pjsipAccMap := by rw [hc']; exact hmap
    refine ⟨?_, by rw [hlog']; exact hworker.command _, ?_, ?_, ?_, by rw [hstate']; rfl, ?_⟩
    · rw [hstrand]
      exact .remove (by simpa [hlog'] using hmapped) (by simp [hlog'])
    · simpa [hlog', hmap'] using h.routed
    · simpa [hlog', hmap'] using h.unrouted
    · simp [hlog']
    · intro x hx
      rw [hlog', lastWrite_concat rfl] at hx
      cases hx
      exact hstate'
  | remove hmapped htook =>
    have hc' := Pool.step_eq (m := (true, e)) hu hs
    have hlog' : c'.log = c.log ++ [(true, .removed pjAccId)] := by rw [hc']; rfl
    have hsame : c'.state = c.state := by rw [hc']; rfl
    have hstrand : c'.strands true = discard (unmapStrand id pjAccId) := by
      rw [hc', Pool.advance_self]
      rfl
    refine ⟨?_, by rw [hlog']; exact hworker.command _, ?_, ?_, ?_,
      by rw [hsame]; exact h.present, ?_⟩
    · rw [hstrand]
      exact .unmap (by simpa [hlog'] using hmapped) (by simpa [hlog'] using htook)
    · simpa [hlog', hsame] using h.routed
    · simpa [hlog', hsame] using h.unrouted
    · simpa [hlog', hsame] using h.claimed
    · rw [hlog', lastWrite_concat_of_not rfl, hsame]
      exact h.written
  | unmap hmapped htook =>
    have hc' := Pool.step_eq (m := (true, e)) hu hs
    have hlog' : c'.log = c.log ++ [(true, .unmapped pjAccId)] := by rw [hc']; rfl
    have hmap : c'.state.pjsipAccMap = c.state.pjsipAccMap.erase pjAccId := by rw [hc']; rfl
    have haccounts : c'.state.accounts = c.state.accounts := by rw [hc']; rfl
    have hstate : regStateOf id c'.state = regStateOf id c.state := by
      rw [regStateOf, haccounts]
      rfl
    have hclaim : claimOf id c'.state = claimOf id c.state := by
      rw [claimOf, haccounts]
      rfl
    refine ⟨?_, by rw [hlog']; exact hworker.command _, ?_, fun _ ↦ ?_, ?_, ?_, ?_⟩
    · refine .ends (by simp [hlog']) (by simpa [hlog'] using htook) ?_
      rw [hc', Pool.advance_self]
      exact Strand.until_plain_bind (tame_logEngine canLog_nil _ _) fun _ ↦
        Strand.until_plain_bind (tame_pushRegState canLog_nil.2 (by decide) _ _) fun _ ↦ .here rfl
    · simp [hlog']
    · rw [hmap, AList.lookup_erase]
    · simpa [hlog', hclaim] using h.claimed
    · rw [hstate]
      exact h.present
    · rw [hlog', lastWrite_concat_of_not rfl, hstate]
      exact h.written
  | ends hmapped htook hends =>
    by_cases hdone : c.strands true = .done ()
    · have hnone : c.step (true, e) = none := Pool.step_done hdone
      rw [hnone] at hs
      cases hs
    · rw [← hu] at hends
      obtain ⟨hends', hlog', t, hsteady, -⟩ := Pool.step_until (m := (true, e)) hends hs hdone
      exact h.steady hlog' hsteady (.ends hmapped htook hends') hworker

end Invariant

section Runs

variable {p : Json} {id : String} {pjAccId : Int} {reports : List RegReport} {s : Engine}
  {ms : List (Bool × Env)} {c : AccountRace}

/-- Every state of the race is as the invariant says. -/
theorem unregistering_run (hkey : accountKey p = some id) (hclaim : claimOf id s = some pjAccId)
    (hroute : s.pjsipAccMap.lookup pjAccId = some id)
    (run : ms.foldlM Pool.step (unregisterRace s p pjAccId reports) = some c) :
    Unregistering p id pjAccId c := by
  have initial : Unregistering p id pjAccId (unregisterRace s p pjAccId reports) :=
    { command := .take List.not_mem_nil List.not_mem_nil
      worker := .delivers (fun r ↦ by simp [unregisterRace, Without]) delivers_workerStrand
      routed := fun _ ↦ hroute
      unrouted := fun h ↦ absurd h List.not_mem_nil
      claimed := fun _ ↦ hclaim
      present := by
        obtain ⟨a, hl, -⟩ := Option.bind_eq_some_iff.mp hclaim
        rw [regStateOf, show AList.lookup id _ = some a from hl]
        rfl
      written := fun x hx ↦ by cases hx }
  refine (Path.of_foldlM run).invariant initial fun c m c' h _ hs ↦ ?_
  obtain ⟨i, e⟩ := m
  cases i with
  | true => exact unregistering_command hkey h hs
  | false => exact unregistering_worker h hs

/-- No callback with a 2xx status leaves the account `Failed`. -/
def NeverFails (id : String) (start : AccountRace) (ms : List (Bool × Env)) : Prop :=
  ∀ js u, js <+: ms → js.foldlM Pool.step start = some u → ∀ r,
    u.log.getLast? = some (false, .recorded r) → r.succeeded →
      ∀ text, regStateOf id u.state ≠ some (.failed text)

/-- After `AccountUnregister` and all callbacks for the PJSIP id of the account, the account is
`Unregistered` and no 2xx response was recorded as a failure, if and only if no 2xx response with
`expires` 0 looked its account up before the command removed the route and the last callback that
wrote the state after the command reported `Unregistered`. -/
theorem unregister_wins_iff (hkey : accountKey p = some id) (hclaim : claimOf id s = some pjAccId)
    (hroute : s.pjsipAccMap.lookup pjAccId = some id)
    (run : ms.foldlM Pool.step (unregisterRace s p pjAccId reports) = some c)
    (hdone : c.Finished) :
    regStateOf id c.state = some .unregistered ∧
        NeverFails id (unregisterRace s p pjAccId reports) ms ↔
      (∀ r, r.succeeded → r.expires = 0 →
        ¬ Without (false, .looked r) (true, .unmapped pjAccId) c.log) ∧
      ∀ i r, lastWrite c.log = some (i, .recorded r) → r.state = .unregistered := by
  have final := unregistering_run hkey hclaim hroute run
  have hlooked : ∀ r, Without (false, .looked r) (true, .unmapped pjAccId) c.log ↔
      (false, .recorded r) ∈ c.log := by
    have hworker := final.worker
    rw [Strand.eq_done (hdone false)] at hworker
    generalize hu : Strand.done () = u at hworker
    cases hworker with
    | delivers hlog _ => exact hlog
    | records => cases hu
  have hwritten (js : List (Bool × Env)) (u : AccountRace)
      (hu : js.foldlM Pool.step (unregisterRace s p pjAccId reports) = some u) (r : RegReport)
      (hlast : u.log.getLast? = some (false, .recorded r)) :
      regStateOf id u.state = some r.state := by
    obtain ⟨log, hlog⟩ := List.getLast?_eq_some_iff.mp hlast
    refine (unregistering_run hkey hclaim hroute hu).written (false, .recorded r) ?_
    rw [hlog, lastWrite_concat rfl]
  constructor
  · rintro ⟨hstate, hnever⟩
    refine ⟨fun r hr hexpires hwithout ↦ ?_, fun i r hlast ↦ ?_⟩
    · obtain ⟨js, u, hjs, hu, hlast⟩ :=
        Pool.exists_last run ((hlooked r).mp hwithout) List.not_mem_nil
      obtain ⟨text, htext⟩ := (RegReport.failed_iff hr).mpr hexpires
      refine hnever js u hjs hu r hlast hr text ?_
      rw [hwritten js u hu r hlast, htext]
    · have hstate' := final.written _ hlast
      rw [hstate] at hstate'
      exact (Option.some.inj hstate').symm
  · rintro ⟨hnone, hlast⟩
    have htook : (true, .took (some pjAccId)) ∈ c.log := by
      have hcommand := final.command
      rw [Strand.eq_done (hdone true)] at hcommand
      generalize hu : Strand.done () = u at hcommand
      cases hcommand with
      | take =>
        unfold unregisterStrand at hu
        rw [hkey] at hu
        cases hu
      | remove => cases hu
      | unmap => cases hu
      | ends _ htook _ => exact htook
    constructor
    · obtain ⟨x, hx⟩ := Option.ne_none_iff_exists'.mp (lastWrite_ne_none htook rfl)
      rw [final.written x hx]
      obtain ⟨i, mark⟩ := x
      cases mark with
      | recorded r => exact congrArg some (hlast i r hx)
      | _ => rfl
    · intro js u hjs hu r hr hsucceeded text htext
      rw [hwritten js u hu r hr] at htext
      have hexpires := (RegReport.failed_iff hsucceeded).mp ⟨text, Option.some.inj htext⟩
      refine hnone r hsucceeded hexpires ((hlooked r).mpr ?_)
      obtain ⟨ks, rfl⟩ := hjs
      rw [List.foldlM_append, hu] at run
      exact (Pool.log_prefix run).mem (List.mem_of_getLast? hr)

/-- The account of `signIn` has the id 0 and its route. -/
theorem exists_signIn : ∃ s, signIn.foldlM engineStep Engine.initial = some s ∧
    claimOf "a" s = some 0 ∧ s.pjsipAccMap.lookup 0 = some "a" := by
  have h : (signIn.foldlM engineStep Engine.initial).map (fun s ↦
      (claimOf "a" s, s.pjsipAccMap.lookup 0)) = some (some 0, some "a") := by decide
  obtain ⟨s, hs, hv⟩ := Option.map_eq_some_iff.mp h
  obtain ⟨hclaim, hroute⟩ := Prod.mk.inj hv
  exact ⟨s, hs, hclaim, hroute⟩

/-- The payload that names the account of `signIn`. -/
def signInPayload : Json := .obj [("uuid", .str "a")]

/-- The answer to the un-REGISTER. -/
def signedOut : RegReport := ⟨0, 200, .null⟩

/-- A response that comes after the route is removed, as an instance. -/
theorem unregister_wins_iff_late :
    ∃ s c, signIn.foldlM engineStep Engine.initial = some s ∧
      (quietly [true, true, true, true, true, false, false, false]).foldlM Pool.step
        (unregisterRace s signInPayload 0 [signedOut]) = some c ∧
      regStateOf "a" c.state = some .unregistered := by
  obtain ⟨s, hs, hclaim, hroute⟩ := exists_signIn
  have h : ((signIn.foldlM engineStep Engine.initial).bind fun s ↦
      (quietly [true, true, true, true, true, false, false, false]).foldlM Pool.step
        (unregisterRace s signInPayload 0 [signedOut])).map (fun c ↦ ((c.strands true).isDone,
          (c.strands false).isDone, c.log)) = some (true, true, [(true, .took (some 0)),
            (true, .removed 0), (true, .unmapped 0), (false, .looked signedOut)]) := by decide
  rw [hs] at h
  obtain ⟨c, hc, hv⟩ := Option.map_eq_some_iff.mp h
  obtain ⟨hcommand, hrest⟩ := Prod.mk.inj hv
  obtain ⟨hworker, hlog⟩ := Prod.mk.inj hrest
  have hresult := unregister_wins_iff rfl hclaim hroute hc fun i ↦ by cases i <;> assumption
  refine ⟨s, c, hs, hc, (hresult.mpr ⟨?_, ?_⟩).1⟩
  · intro r _ _ hwithout
    rw [hlog] at hwithout
    simp [without_cons] at hwithout
  · intro i r hr
    rw [hlog] at hr
    cases hr

/-- The answer to the un-REGISTER comes before the route is removed: the account is `Failed`. -/
theorem unregister_fails :
    ∃ s c, signIn.foldlM engineStep Engine.initial = some s ∧
      (quietly [true, true, false, false, false, false, false, true, true, true]).foldlM Pool.step
        (unregisterRace s signInPayload 0 [signedOut]) = some c ∧ c.Finished ∧
      signedOut.succeeded ∧ regStateOf "a" c.state = some (.failed "200 ") := by
  obtain ⟨s, hs, -, -⟩ := exists_signIn
  have h : ((signIn.foldlM engineStep Engine.initial).bind fun s ↦
      (quietly [true, true, false, false, false, false, false, true, true, true]).foldlM Pool.step
        (unregisterRace s signInPayload 0 [signedOut])).map (fun c ↦ ((c.strands true).isDone,
          (c.strands false).isDone, regStateOf "a" c.state)) =
            some (true, true, some (.failed "200 ")) := by decide
  rw [hs] at h
  obtain ⟨c, hc, hv⟩ := Option.map_eq_some_iff.mp h
  obtain ⟨hcommand, hrest⟩ := Prod.mk.inj hv
  obtain ⟨hworker, hstate⟩ := Prod.mk.inj hrest
  have hsucceeded : signedOut.succeeded := ⟨by decide, by decide⟩
  exact ⟨s, c, hs, hc, fun i ↦ by cases i <;> assumption, hsucceeded, hstate⟩

end Runs

end PacketDial.System
