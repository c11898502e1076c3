import PacketDial.Lib.Crews
import PacketDial.System.Deadlock

/-!
# Commands and callbacks on any number of threads

The engine is called from many threads: the one of the app, one for each client of the local API
and those of PJSIP. Whatever commands and callbacks these run, one after another on each thread and
in any order among them, they come to an end. Where no command calls PJSIP under `CALLS`, or no
callback locks `CALLS`, only a refused `AccountRegister` can keep them from finishing.
-/

namespace PacketDial.System

open PacketDial.Core PacketDial.Lib

/-- What a thread does: a command, or a callback of PJSIP. -/
inductive Job where
  | command (cmd : String) (p : Json)
  | callback (op : Op) (hop : isCallback op = true)

/-- A thread that does the job. -/
def Job.thread (e : Env) : Job → EngineThread
  | command cmd p => commandThread e cmd p
  | callback op _ => callbackThread e op

/-- The job calls PJSIP under `CALLS`. -/
def Job.sendsDtmf : Job → Bool
  | command cmd p => System.sendsDtmf cmd p
  | callback .. => false

/-- The job is a callback that can lock `CALLS`. -/
def Job.locksCalls : Job → Bool
  | command .. => false
  | callback op _ => System.locksCalls op

/-- The job registers an account. -/
def Job.registers : Job → Bool
  | command cmd _ => cmd = "AccountRegister"
  | callback .. => false

/-- A thread that has nothing to do. -/
def idleThread : EngineThread := ⟨quietEnv, [], .done (), [], []⟩

/-- Threads with their jobs, each in its environment, that start in the state `s`. -/
def crew {n : Nat} (s : Engine) (jobs : Fin n → List (Env × Job)) :
    Crew n Env Engine Action Lock :=
  ⟨s, fun i ↦ ⟨idleThread, (jobs i).map fun j ↦ j.2.thread j.1⟩⟩

/-- No job calls PJSIP under `CALLS`, or no callback locks `CALLS`. -/
def Compatible {n : Nat} (jobs : Fin n → List (Env × Job)) : Prop :=
  (∀ i, ∀ j ∈ jobs i, j.2.sendsDtmf = false) ∨ ∀ i, ∀ j ∈ jobs i, j.2.locksCalls = false

section Freed

/-- The run gives back all locks that it takes. -/
def Freed (_ : List Mutex) (_ : Engine) (t : List Action) (_ : Engine) : Prop :=
  ∀ held, GivesBack (fun _ _ ↦ True) held (engineLocks.trace t)

instance (held : List Mutex) : Traced.Composable (Freed held) where
  nil _ _ := givesBack_nil _
  append h h' locks := by
    rw [trace_append]
    exact GivesBack.append (h locks) (h' locks)

/-- Critical sections and shim calls give back their locks, whatever is held. -/
instance {γ δ : Type} {v : View Engine Action γ δ} : Blind v Freed where
  update _ _ := givesBack_nil _
  emit _ _ hl hs _ := by
    rw [LockModel.trace, List.flatMap_cons, acts_eq_nil hl hs]
    exact givesBack_nil _
  shim {call} _ _ locks := by
    simp only [LockModel.trace, engineLocks, actionLocks, List.flatMap_cons, List.flatMap_nil]
    split
    · exact GivesBack.guarded trivial (givesBack_nil _)
    · exact givesBack_nil _
  guard _ h locks := by
    rw [trace_guard]
    exact GivesBack.guarded trivial (h _)
  inner h := h

/-- Also a registration that waits for itself would give back its locks in the end. -/
theorem freed_registerFailed (id : String) : Traced.Admits (Freed []) (registerFailed id) := by
  have canLog : CanLog [.accounts] := by decide
  -- what is freed does not depend on the locks held, so the push counts as made under none
  have free (state : RegistrationState) : Traced.Admits (Freed []) (pushRegState id state) :=
    tame_pushRegState (by decide) (by decide) id state
  have push (state : RegistrationState) :
      Traced.Admits (Freed [.accounts]) (pushRegState id state) := free state
  unfold registerFailed
  dsimp only
  refine (tame_withLock (by decide) ?_).bind fun _ ↦ tame_pure _
  exact (tame_setRegState id _).bind fun _ ↦ (push _).bind fun _ ↦ tame_logEngine canLog _ _

/-- `AccountRegister` gives back its locks. -/
theorem freed_cmdAccountRegister (p : Json) :
    Traced.Admits (Freed []) (cmdAccountRegister p) := by
  have canLog : CanLog [] := by decide
  unfold cmdAccountRegister
  split
  · exact tame_pure _
  · next id _ =>
    refine (tame_lookupForRegister id).bind fun found ↦ ?_
    split
    · exact tame_pure _
    · refine (tame_beginRegistration id _).bind fun _ ↦ ?_
      split
      · exact (tame_logEngine canLog _ _).bind fun _ ↦ tame_pure _
      · next acct args _ =>
        have add : Traced.Admits (Freed []) (shim (.pdAccAdd args)) :=
          blind_shim (v := callView) rfl
        refine add.bind fun pjAccId ↦ ?_
        exact Traced.admits_ite (freed_registerFailed id) (tame_registerStarted id _)

end Freed

section Threads

variable {ρ : Lock → Nat} {cmd : String} {p : Json} {op : Op} {j : Job}

/-- The thread of a command that takes its locks in rank never waits for itself. -/
theorem settles_commandThread (e : Env)
    (h : Traced.Admits (InRank ρ [] []) (dispatchCommand cmd p)) :
    (commandThread e cmd p).Ahead engineLocks (Settles engineLocks ρ) := by
  intro s t a s' hexec
  have hback : replay (InOrder engineLocks ρ) [] (engineLocks.trace t) = some [] :=
    inRank_exec (h.map (Function.const _ ())) hexec
  simpa [commandThread, Settles] using hback

/-- The thread of a callback that takes its locks in order over the library lock never waits for
itself. -/
theorem settles_callbackThread (e : Env)
    (h : ∀ s t a s', op.run.Exec (fun _ _ ↦ True) s t a s' →
      GivesBack (InOrder engineLocks ρ) [.library] (engineLocks.trace t)) :
    (callbackThread e op).Ahead engineLocks (Settles engineLocks ρ) := by
  intro s t a s' hexec
  exact GivesBack.guarded (Or.inr (List.forall_mem_nil _)) (h s t a s' hexec)

/-- The thread of an `AccountRegister` gives back its locks in order. -/
theorem inTurn_register [Blind callView (InRank ρ [])] [Blind accountView (InRank ρ [])]
    (e : Env) (p : Json) :
    (commandThread e "AccountRegister" p).Ahead engineLocks (InTurn engineLocks ρ) := by
  intro s t a s' hexec
  have orderly : Ranked ρ [] (dispatchCommand "AccountRegister" p) :=
    (orderly_cmdAccountRegister p).map _
  refine ⟨orderly_commandThread e orderly s t a s' hexec, ?_⟩
  have freed : Traced.Admits (Freed []) (discard (dispatchCommand "AccountRegister" p)) :=
    ((freed_cmdAccountRegister p).map _).map _
  have hback : replay (fun _ _ ↦ True) [] (engineLocks.trace t) = some [] :=
    freed s t a s' (hexec.mono fun _ _ _ _ ↦ givesBack_nil _) []
  simpa [commandThread] using hback

/-- Where no job calls PJSIP under `CALLS`, only registrations can wait for themselves. -/
theorem settles_library (e : Env) (hdtmf : j.sendsDtmf = false) (hreg : j.registers = false) :
    (j.thread e).Ahead engineLocks (Settles engineLocks libraryRank) := by
  cases j with
  | command cmd p =>
    have hcmd : cmd ≠ "AccountRegister" := by simpa [Job.registers] using hreg
    refine settles_commandThread e (inRank_command hcmd fun heq ↦ inRank_sendDtmf ?_)
    rw [← heq]
    exact hdtmf
  | callback op hop =>
    refine settles_callbackThread e fun s t a s' hexec ↦ ?_
    have hrank : Traced.Admits (InRank libraryRank [.library] []) op.run := admits_callback hop
    exact inRank_exec hrank hexec

/-- Where no callback locks `CALLS`, only registrations can wait for themselves. -/
theorem settles_dtmf (e : Env) (hcalls : j.locksCalls = false) (hreg : j.registers = false) :
    (j.thread e).Ahead engineLocks (Settles engineLocks dtmfRank) := by
  cases j with
  | command cmd p =>
    have hcmd : cmd ≠ "AccountRegister" := by simpa [Job.registers] using hreg
    exact settles_commandThread e (inRank_command hcmd fun _ ↦ inRank_dtmf p)
  | callback op hop =>
    refine settles_callbackThread e fun s t a s' hexec ↦ ?_
    have hspared := spared_callback hop hcalls
    have hback := hspared s t a s' (hexec.mono fun _ _ _ _ ↦ givesBack_nil _) (by decide)
    exact replay_mono (fun _ _ h ↦ h.1) hback

/-- A job whose thread never waits for itself, registrations apart, gives back its locks in
order. -/
theorem inTurn_job [Blind callView (InRank ρ [])] [Blind accountView (InRank ρ [])] (e : Env)
    (h : j.registers = false → (j.thread e).Ahead engineLocks (Settles engineLocks ρ)) :
    (j.thread e).Ahead engineLocks (InTurn engineLocks ρ) := by
  by_cases hreg : j.registers = false
  · exact (h hreg).imp fun _ _ ↦ Settles.inTurn
  · cases j with
    | command cmd p =>
      obtain rfl : cmd = "AccountRegister" := by simpa [Job.registers] using hreg
      exact inTurn_register e p
    | callback op hop => exact absurd rfl hreg

end Threads

section Crews

variable {n : Nat} {s : Engine} {jobs : Fin n → List (Env × Job)} {ρ : Lock → Nat}
  {c : Crew n Env Engine Action Lock} {is : List (Fin n)}

/-- All jobs take their locks in the order of the rank, and only registrations can wait for
themselves. -/
structure Follow (ρ : Lock → Nat) (jobs : Fin n → List (Env × Job)) : Prop where
  inTurn : ∀ i, ∀ j ∈ jobs i, (j.2.thread j.1).Ahead engineLocks (InTurn engineLocks ρ)
  settles : ∀ i, ∀ j ∈ jobs i, j.2.registers = false →
    (j.2.thread j.1).Ahead engineLocks (Settles engineLocks ρ)

/-- Compatible jobs follow one of the two ranks. -/
theorem Compatible.follow (h : Compatible jobs) : ∃ ρ, Follow ρ jobs := by
  rcases h with hdtmf | hcalls
  · have settles (i : Fin n) (j : Env × Job) (hj : j ∈ jobs i) (hreg : j.2.registers = false) :=
      settles_library j.1 (hdtmf i j hj) hreg
    exact ⟨libraryRank, fun i j hj ↦ inTurn_job j.1 (settles i j hj), settles⟩
  · have settles (i : Fin n) (j : Env × Job) (hj : j ∈ jobs i) (hreg : j.2.registers = false) :=
      settles_dtmf j.1 (hcalls i j hj) hreg
    exact ⟨dtmfRank, fun i j hj ↦ inTurn_job j.1 (settles i j hj), settles⟩

/-- No thread holds a lock before its job. -/
theorem Job.thread_held (e : Env) (j : Job) : (j.thread e).held = [] := by
  cases j <;> rfl

/-- A worker starts with what is said of its jobs. -/
theorem ahead_start {Φ : List Lock → List (LockAct Lock) → Prop} (i : Fin n) (hΦ : Φ [] [])
    (h : ∀ j ∈ jobs i, (j.2.thread j.1).Ahead engineLocks Φ) :
    ((crew s jobs).workers i).Ahead engineLocks Φ where
  current := by
    rintro u t a u' ⟨rfl, -, -⟩
    exact hΦ
  queue t ht := by
    obtain ⟨j, hj, rfl⟩ := List.mem_map.mp ht
    exact ⟨j.2.thread_held j.1, h j hj⟩

/-- The crew is orderly wherever it comes. -/
theorem Follow.orderly (h : Follow ρ jobs)
    (run : is.foldlM (Crew.step engineLocks) (crew s jobs) = some c) :
    c.Orderly engineLocks ρ := by
  have start : (crew s jobs).Orderly engineLocks ρ :=
    ⟨fun i ↦ ahead_start i ⟨trivial, rfl⟩ (h.inTurn i), fun _ _ _ _ hm ↦ by cases hm⟩
  exact (Path.of_foldlM run).invariant start fun _ _ _ h _ hs ↦ h.step hs

/-- A worker without registrations never waits for itself. -/
theorem Follow.not_waitsForItself (h : Follow ρ jobs) {i : Fin n}
    (hreg : ∀ j ∈ jobs i, j.2.registers = false)
    (run : is.foldlM (Crew.step engineLocks) (crew s jobs) = some c) :
    ¬ (c.workers i).WaitsForItself engineLocks := by
  have start : ((crew s jobs).workers i).Ahead engineLocks (Settles engineLocks ρ) :=
    ahead_start i rfl fun j hj ↦ h.settles i j hj (hreg j hj)
  have kept (d : Crew n Env Engine Action Lock) (k : Fin n) (d' : Crew n Env Engine Action Lock)
      (hd : (d.workers i).Ahead engineLocks (Settles engineLocks ρ)) (_ : True)
      (hstep : d.step engineLocks k = some d') :
      (d'.workers i).Ahead engineLocks (Settles engineLocks ρ) :=
    Crew.ahead_step hd enduring_settles (fun _ hnil ↦ Option.some.inj hnil) hstep
  exact ((Path.of_foldlM run).invariant start kept).not_waitsForItself c.state

/-- Any number of threads, each with any sequence of compatible commands and callbacks, in any
order: where none can go on, all are done, or a thread with an `AccountRegister` waits for a lock
that it holds itself. -/
theorem stuck_crew (h : Compatible jobs)
    (run : is.foldlM (Crew.step engineLocks) (crew s jobs) = some c)
    (hstuck : c.Stuck engineLocks) :
    (∀ i, (c.workers i).Done) ∨
      ∃ i, (∃ j ∈ jobs i, j.2.registers = true) ∧ (c.workers i).WaitsForItself engineLocks := by
  obtain ⟨ρ, hfollow⟩ := h.follow
  rcases (hfollow.orderly run).of_stuck hstuck with hdone | ⟨i, hself⟩
  · exact Or.inl hdone
  · refine Or.inr ⟨i, ?_, hself⟩
    by_contra hnone
    refine hfollow.not_waitsForItself (i := i) (fun j hj ↦ ?_) run hself
    by_contra hreg
    exact hnone ⟨j, hj, by simpa using hreg⟩

/-- Two threads: a client of the local API that registers an account and sends a digit, and a
PJSIP thread that reports the end of a transfer. -/
def registerAndTransfer (i : Fin 2) : List (Env × Job) :=
  if i = 0 then
    [(quietEnv, .command "AccountRegister" (.obj [("uuid", .str "a")])),
      (quietEnv, .command "CallSendDtmf" dtmfPayload)]
  else [(quietEnv, .callback (.onTransferStatus 0 200 (.text "OK") 1) rfl)]

/-- They come to a point where none can go on, as an instance. -/
theorem stuck_crew_two : ∃ c : Crew 2 Env Engine Action Lock, c.Stuck engineLocks ∧
    ((∀ i, (c.workers i).Done) ∨ ∃ i, (∃ j ∈ registerAndTransfer i, j.2.registers = true) ∧
      (c.workers i).WaitsForItself engineLocks) := by
  obtain ⟨is, c, hrun, hstuck⟩ :=
    Crew.exists_stuck (M := engineLocks) (crew Engine.initial registerAndTransfer)
  exact ⟨c, hstuck, stuck_crew (Or.inr (by decide)) hrun hstuck⟩

/-- Any number of threads, each with any sequence of compatible commands and callbacks other than
`AccountRegister`: no order of their steps goes on for ever, and where it ends all jobs are done
and all locks are free. -/
theorem crew_finishes (h : Compatible jobs) (hreg : ∀ i, ∀ j ∈ jobs i, j.2.registers = false)
    (run : is.foldlM (Crew.step engineLocks) (crew s jobs) = some c) :
    (∀ steps : Nat → Crew n Env Engine Action Lock, steps 0 = c →
        ∃ k, ∀ i, (steps k).step engineLocks i ≠ some (steps (k + 1))) ∧
      (c.Stuck engineLocks → ∀ i, (c.workers i).Done ∧ (c.workers i).current.held = []) := by
  obtain ⟨ρ, hfollow⟩ := h.follow
  have orderly := hfollow.orderly run
  refine ⟨fun steps _ ↦ Crew.exists_last steps, fun hstuck i ↦ ?_⟩
  rcases orderly.of_stuck hstuck with hdone | ⟨k, hself⟩
  · have hheld := (orderly.workers i).current.of_finished c.state (hdone i).1
    exact ⟨hdone i, hheld.eq_nil⟩
  · exact absurd hself (hfollow.not_waitsForItself (hreg k) run)

/-- Two threads: one that dials and hangs up, and one that reports the call. -/
def dialAndReport (i : Fin 2) : List (Env × Job) :=
  if i = 0 then
    [(quietEnv, .command "CallStart" (.obj [("uri", .str "sip:x@y")])),
      (quietEnv, .command "CallHangup" .null)]
  else [(quietEnv, .callback (.onCallState 0 5) rfl), (quietEnv, .callback (.onCallState 0 6) rfl)]

/-- They finish, as an instance. -/
theorem crew_finishes_two : ∃ c : Crew 2 Env Engine Action Lock, c.Stuck engineLocks ∧
    ∀ i, (c.workers i).Done ∧ (c.workers i).current.held = [] := by
  obtain ⟨is, c, hrun, hstuck⟩ :=
    Crew.exists_stuck (M := engineLocks) (crew Engine.initial dialAndReport)
  exact ⟨c, hstuck, (crew_finishes (Or.inl (by decide)) (by decide) hrun).2 hstuck⟩

end Crews

end PacketDial.System
