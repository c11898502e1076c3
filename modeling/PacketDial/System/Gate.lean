import PacketDial.System.LockDiscipline
import PacketDial.System.ShimFree

/-!
# The lifecycle gate

`INITIALIZED` is to let shim operations through only while PJSIP is up, from the return of 0 by
`pd_init` to the call of `pd_shutdown`. Any number of threads run the operations of the engine
here, one primitive at a time, the callers of the C ABI and the clients of the IPC server alike;
the callbacks of PJSIP change the other globals in between. A lock that is held stops nobody, so the
runs of the program are among those of the model.
-/

namespace PacketDial.System

open PacketDial.Core PacketDial.Lib

/-- The action calls no shim operation but `pd_init`. -/
def Harmless : Action → Prop
  | .shim (.pdInit _) => True
  | .shim _ => False
  | _ => True

/-- The action calls `pd_shutdown`. -/
def IsShutdown (a : Action) : Prop := a = .shim .pdShutdown

/-- The shim operation that an action calls. -/
def shimOf : Option Action → Option ShimCall
  | some (.shim call) => some call
  | _ => none

/-- A call of `pd_init`. -/
def isInit : ShimCall → Bool
  | .pdInit _ => true
  | _ => false

/-- A call of `pd_shutdown`. -/
def endsPjsip : ShimCall → Bool
  | .pdShutdown => true
  | _ => false

/-- The operations that start with `INITIALIZED.swap`. -/
def swaps : Op → Bool
  | .init _ | .shutdown => true
  | _ => false

/-- The operations that the IPC server performs for its clients. -/
def isIpc : Op → Bool
  | .ipcConnect _ | .ipcLine .. => true
  | _ => false

/-- The operations that check `INITIALIZED` first: the entry points of the C ABI apart from
`engine_init` and `engine_set_event_callback`. -/
def checks (op : Op) : Bool :=
  !isCallback op && !isIpc op && match op with
    | .init _ | .setEventCallback _ => false
    | _ => true

/-- An IPC line with a command that may call the shim. -/
def lineCalls (e : Env) : Op → Bool
  | .ipcLine _ line => (e.parseJson line).any fun v ↦
      (v.get "type").asStr.getD "" ∈ shimCommands
  | _ => false

/-- An operation that a thread performs: what is left of it, whether it has begun, and the shim
operation whose return it waits for. -/
structure Task where
  op : Op
  rest : Eng Unit
  entered : Bool
  awaiting : Option ShimCall

/-- What a thread performs in one go: a primitive, or the two of `INITIALIZED.swap`. -/
def Task.perform (task : Task) (e : Env) (s : Engine) :
    Option (Eng Unit × Engine × Option Action) :=
  if !task.entered && swaps task.op then
    (task.rest.next e s).bind fun first ↦ first.1.next e first.2.1
  else task.rest.next e s

/-- The return of 0 by `pd_init`. -/
def Task.initReturns (task : Task) (e : Env) : Bool :=
  task.awaiting.any fun call ↦ isInit call && e.rc call == 0

/-- The engine and its threads. PJSIP is `up` between a `pd_init` that returned 0 and the next
`pd_shutdown`; the IPC server is started once a `pd_init` has returned 0. -/
structure Process where
  engine : Engine
  tasks : Nat → Option Task
  up : Bool
  served : Bool

/-- The process before the first operation. -/
def Process.initial : Process := ⟨Engine.initial, fun _ ↦ none, false, false⟩

/-- What happens next: an operation begins, a thread takes a step, or a callback of PJSIP has
changed the engine. -/
inductive Move where
  | begin (thread : Nat) (op : Op)
  | step (thread : Nat) (e : Env)
  | callback (s : Engine)

namespace Process

/-- The process after a step of a thread. -/
def advance (c : Process) (i : Nat) (task : Task) (e : Env) (rest : Eng Unit) (s : Engine)
    (a : Option Action) : Process where
  engine := s
  tasks := Function.update c.tasks i (some ⟨task.op, rest, true, shimOf a⟩)
  up := (c.up || task.initReturns e) && !(shimOf a).any endsPjsip
  served := c.served || task.initReturns e

/-- One step of the process. A thread that has nothing left is free for another operation. -/
def step (c : Process) : Move → Option Process
  | .begin i op =>
    if (c.tasks i).isNone ∧ isCallback op = false ∧ (isIpc op = true → c.served = true) then
      some { c with tasks := Function.update c.tasks i (some ⟨op, op.run, false, none⟩) }
    else none
  | .step i e => (c.tasks i).map fun task ↦
    match task.perform e c.engine with
    | some (rest, s, a) => c.advance i task e rest s a
    | none => { c with tasks := Function.update c.tasks i none }
  | .callback s =>
    if s.initialized = c.engine.initialized then some { c with engine := s } else none

/-- The shim operation that a move calls. -/
def issues (c : Process) : Move → Option ShimCall
  | .step i e => (c.tasks i).bind fun task ↦
    (task.perform e c.engine).bind fun next ↦ shimOf next.2.2
  | _ => none

end Process

/-- Whoever finds `INITIALIZED` set finds PJSIP up, an IPC line whose command calls the shim comes
while PJSIP is up, and `pd_shutdown` is called only when no other thread inside the gate can call
the shim any more. -/
def Timely (c : Process) : Move → Prop
  | .step i e => ∀ task ∈ c.tasks i,
    (task.entered = false →
      (checks task.op = true → c.engine.initialized = true → c.up = true) ∧
      (lineCalls e task.op = true → c.up = true)) ∧
    (c.issues (.step i e) = some .pdShutdown → ∀ j ≠ i, ∀ other ∈ c.tasks j,
      other.entered = true → other.rest.Only Harmless)
  | _ => True

section Operations

variable {α : Type} {x : Eng α}

/-- A program that leaves the shim alone is harmless. -/
theorem harmless_of_shimFree (h : ShimFree x) : x.Only Harmless := by
  have : Nonempty Env := ⟨quietEnv⟩
  have : Nonempty Engine := ⟨Engine.initial⟩
  refine (h.performs fun a ha ↦ ?_).only
  cases a with
  | shim call => cases ha
  | _ => trivial

/-- The program does nothing, or checks `INITIALIZED` first. -/
def Checked (x : Eng α) : Prop :=
  x.Only Harmless ∨ ∃ k, x = .getting k ∧ ∀ s, s.initialized = false → (k s).Only Harmless

/-- A program that returns at once. -/
theorem checked_pure (a : α) : Checked (pure a : Eng α) := Or.inl trivial

/-- The result does not matter. -/
theorem checked_discard (h : Checked x) : Checked (discard x : Eng Unit) := by
  rcases h with h | ⟨k, rfl, hk⟩
  · exact Or.inl (h.bind fun _ ↦ trivial)
  · exact Or.inr ⟨_, rfl, fun s hs ↦ (hk s hs).bind fun _ ↦ trivial⟩

/-- The gate of an entry point. -/
theorem checked_whenInitialized (body : Eng Int) : Checked (whenInitialized body) := by
  refine Or.inr ⟨_, rfl, fun s hs ↦ ?_⟩
  change Traced.Only Harmless (if s.initialized = true then body else _)
  rw [if_neg (by rw [hs]; exact Bool.false_ne_true)]
  trivial

/-- A text argument comes before the gate. -/
theorem checked_withText (ptr : CPtr) {body : String → Eng Int} (h : ∀ text, Checked (body text)) :
    Checked (withText ptr body) := by
  unfold withText
  split
  · exact h _
  · exact checked_pure _

/-- `engine_shutdown` clears `INITIALIZED` and goes on only if it was set. -/
theorem checked_engineShutdown : Checked engineShutdown := by
  refine Or.inr ⟨_, rfl, fun s hs ↦ ?_⟩
  change Traced.Only Harmless (Traced.modify _ >>= fun _ ↦ if (!s.initialized) = true then _ else _)
  rw [if_pos (by rw [hs]; rfl)]
  have free := shimFree_logEngine .warn "engine_shutdown called while not initialized"
  exact Traced.Only.bind trivial fun _ ↦ (harmless_of_shimFree free).bind fun _ ↦ trivial

/-- `engine_is_recording` checks `INITIALIZED` as well. -/
theorem checked_engineIsRecording : Checked engineIsRecording := by
  refine Or.inr ⟨_, rfl, fun s hs ↦ ?_⟩
  change Traced.Only Harmless (if s.initialized = true then _ else _)
  rw [if_neg (by rw [hs]; exact Bool.false_ne_true)]
  trivial

/-- The operations with a check do nothing unless it succeeds. -/
theorem checked_op {op : Op} (h : checks op = true) : Checked op.run := by
  cases op with
  | shutdown => exact checked_discard checked_engineShutdown
  | isRecording => exact checked_discard checked_engineIsRecording
  | sendCommand cmdType payload =>
    exact checked_discard <| checked_withText _ fun _ ↦ checked_withText _ fun _ ↦
      checked_whenInitialized _
  | register accountId user pass domain =>
    exact checked_discard <| checked_withText _ fun _ ↦ checked_withText _ fun _ ↦
      checked_withText _ fun _ ↦ checked_withText _ fun _ ↦ checked_whenInitialized _
  | makeCall accountId number =>
    exact checked_discard <| checked_withText _ fun _ ↦ checked_withText _ fun _ ↦
      checked_whenInitialized _
  | unregister accountId =>
    exact checked_discard <| checked_withText _ fun _ ↦ checked_whenInitialized _
  | sendDtmf digits =>
    exact checked_discard <| checked_withText _ fun _ ↦ checked_whenInitialized _
  | setLogLevel level =>
    exact checked_discard <| checked_withText _ fun _ ↦ checked_whenInitialized _
  | transferCall callId destUri =>
    exact checked_discard <| checked_withText _ fun _ ↦ checked_whenInitialized _
  | startAttendedXfer callId destUri =>
    exact checked_discard <| checked_withText _ fun _ ↦ checked_whenInitialized _
  | playDtmf digits =>
    refine checked_discard ?_
    unfold enginePlayDtmf
    split
    · exact checked_pure _
    · exact checked_whenInitialized _
  | startRecording filePath =>
    refine checked_discard ?_
    unfold engineStartRecording
    split
    · exact checked_pure _
    · exact checked_whenInitialized _
  | hangup | answerCall | setMute muted | setHold onHold | stopRecording
  | completeXfer callA callB | mergeConference callA callB | listAudioDevices
  | setAudioDevices inputId outputId | getLogBuffer =>
    exact checked_discard (checked_whenInitialized _)
  | _ => cases h

/-- `engine_init` calls `pd_init` only. -/
theorem harmless_engineInit (userAgent : CPtr) : (engineInit userAgent).Only Harmless := by
  have log (level : LogLevel) (message : String) : (logEngine level message).Only Harmless :=
    harmless_of_shimFree (shimFree_logEngine level message)
  unfold engineInit
  refine Traced.Only.bind (fun _ ↦ trivial) fun s ↦ Traced.Only.bind trivial fun _ ↦ ?_
  split
  · exact (log _ _).bind fun _ ↦ trivial
  · refine Traced.Only.bind ⟨trivial, fun _ ↦ trivial⟩ fun rc ↦ ?_
    split
    · exact Traced.Only.bind trivial fun _ ↦ (log _ _).bind fun _ ↦ trivial
    · refine (harmless_of_shimFree (shimFree_pushEvent _ _)).bind fun _ ↦ ?_
      exact (log _ _).bind fun _ ↦ trivial

/-- An IPC line does nothing unless its command may call the shim. -/
theorem harmless_ipcLine {client : Nat} {line : String} {e : Env}
    (h : lineCalls e (.ipcLine client line) = false) :
    ∃ k, Core.ipcLine client line = .asking k ∧ (k e).Only Harmless := by
  refine ⟨_, rfl, ?_⟩
  change (e.parseJson line).any _ = false at h
  dsimp only [Traced.andThen]
  cases hv : e.parseJson line with
  | none => trivial
  | some v =>
    rw [hv, Option.any_some] at h
    have hcmd := of_decide_eq_false h
    refine (harmless_of_shimFree (shimFree_dispatchCommand (v.get "payload") hcmd)).bind ?_
    intro result
    cases result with
    | ok rc => exact ⟨trivial, trivial⟩
    | error halt => trivial

end Operations

section Shutdown

/-- The run does not shut PJSIP down. -/
def Lasting (_ : List Mutex) : Engine → List Action → Engine → Prop :=
  Traced.Performs fun a ↦ ¬ IsShutdown a

instance (held : List Mutex) : Traced.Composable (Lasting held) :=
  inferInstanceAs (Traced.Composable (Traced.Performs fun a ↦ ¬ IsShutdown a))

/-- Where a view shows `pd_shutdown`, what it hides does not shut PJSIP down. -/
theorem blind_lasting {γ δ : Type} {v : View Engine Action γ δ}
    (hv : v.act (.shim .pdShutdown) ≠ none) : Blind v Lasting where
  update _ := List.forall_mem_nil _
  emit _ _ _ hs := List.forall_mem_singleton.mpr fun h ↦ by rw [h] at hs; cases hs
  shim _ h := List.forall_mem_singleton.mpr fun hshut ↦ hv (hshut ▸ h)
  guard _ h := by
    have hlock (act : LockAct Mutex) : ¬ IsShutdown (.lock act) := fun h ↦ by cases h
    exact List.forall_mem_cons.mpr ⟨hlock _, List.forall_mem_append.mpr
      ⟨h, List.forall_mem_singleton.mpr (hlock _)⟩⟩
  inner _ := List.forall_mem_nil _

instance : Blind callView Lasting := blind_lasting (by decide)

instance : Blind accountView Lasting := blind_lasting (by decide)

instance : Lenient accountView Lasting where
  shim _ h := List.forall_mem_singleton.mpr fun hshut ↦ by rw [hshut] at h; cases h

/-- A program that leaves the shim alone does not shut PJSIP down. -/
theorem lasting_of_shimFree {α : Type} {x : Eng α} (h : ShimFree x) :
    Traced.Admits (Lasting []) x :=
  h.performs fun a ha hshut ↦ by rw [hshut] at ha; cases ha

/-- The failure path of a registration does not either. -/
theorem lasting_registerFailed (id : String) : Traced.Admits (Lasting []) (registerFailed id) := by
  refine lasting_of_shimFree ?_
  refine Traced.Admits.bind (shimFree_withLock ?_) fun _ ↦ shimFree_pure _
  refine Traced.Admits.bind (Traced.admits_get.bind fun s ↦ ?_) fun _ ↦ ?_
  · split
    · exact shimFree_modify _
    · exact shimFree_pure _
  · exact (shimFree_pushRegState _ _).bind fun _ ↦ shimFree_logEngine _ _

/-- Only `engine_shutdown` does. -/
theorem lasting_op {op : Op} (hop : op ≠ .shutdown) : Traced.Admits (Lasting []) op.run :=
  admits_op lasting_registerFailed hop (fun _ ↦ inferInstance) fun _ ↦ inferInstance

/-- Nothing comes after `pd_shutdown`. -/
theorem ends_engineShutdown : engineShutdown.Ends IsShutdown Harmless := by
  have : Nonempty Env := ⟨quietEnv⟩
  have : Nonempty Engine := ⟨Engine.initial⟩
  have log (level : LogLevel) (message : String) :
      (logEngine level message).Only fun a ↦ ¬ IsShutdown a :=
    (lasting_of_shimFree (shimFree_logEngine level message)).only
  have clear (m : Mutex) (f : Engine → Engine) :
      (withLock m (Traced.modify f)).Only fun a ↦ ¬ IsShutdown a :=
    (lasting_of_shimFree (shimFree_withLock (shimFree_modify f))).only
  unfold engineShutdown
  refine Traced.Only.ends_bind (fun _ ↦ trivial) fun s ↦ ?_
  refine Traced.Only.ends_bind trivial fun _ ↦ ?_
  split
  · exact (log _ _).ends_bind fun _ ↦ trivial
  · refine (log _ _).ends_bind fun _ ↦ (clear _ _).ends_bind fun _ ↦ ?_
    refine (clear _ _).ends_bind fun _ ↦ ?_
    exact ⟨fun _ _ ↦ trivial, fun _ ↦ trivial⟩

/-- In no operation does anything come after it. -/
theorem ends_op (op : Op) : op.run.Ends IsShutdown Harmless := by
  have : Nonempty Env := ⟨quietEnv⟩
  have : Nonempty Engine := ⟨Engine.initial⟩
  by_cases hop : op = .shutdown
  · subst hop
    exact ends_engineShutdown.map _
  · exact (lasting_op hop).only.ends

end Shutdown

section Steps

variable {task : Task} {e : Env} {s s' : Engine} {rest : Eng Unit} {a : Option Action}

/-- The action of a shim operation. -/
theorem eq_of_shimOf {call : ShimCall} (h : shimOf a = some call) : a = some (.shim call) := by
  cases a with
  | none => cases h
  | some b =>
    cases b with
    | shim call' =>
      cases h
      rfl
    | _ => cases h

/-- `pd_shutdown` is one operation. -/
theorem eq_of_endsPjsip {call : ShimCall} (h : endsPjsip call = true) : call = .pdShutdown := by
  cases call with
  | pdShutdown => rfl
  | _ => cases h

/-- What a task performs in one go is the beginning of its run. -/
theorem perform_run (hp : task.perform e s = some (rest, s', a)) :
    (task.rest.run e s).state = (rest.run e s').state := by
  unfold Task.perform at hp
  split at hp
  · obtain ⟨⟨y, u, b⟩, hfirst, hsecond⟩ := Option.bind_eq_some_iff.mp hp
    rw [Traced.run_of_next hfirst, Traced.run_of_next hsecond]
  · rw [Traced.run_of_next hp]

/-- A harmless task stays harmless. -/
theorem perform_only {P : Action → Prop} (h : task.rest.Only P)
    (hp : task.perform e s = some (rest, s', a)) : rest.Only P ∧ ∀ b ∈ a, P b := by
  unfold Task.perform at hp
  split at hp
  · obtain ⟨⟨y, u, b⟩, hfirst, hsecond⟩ := Option.bind_eq_some_iff.mp hp
    exact (h.next hfirst).1.next hsecond
  · exact h.next hp

/-- Nothing comes after `pd_shutdown`. -/
theorem perform_ends {P Q : Action → Prop} (h : task.rest.Ends P Q)
    (hp : task.perform e s = some (rest, s', a)) :
    rest.Ends P Q ∧ ∀ b ∈ a, P b → rest.Only Q := by
  unfold Task.perform at hp
  split at hp
  · obtain ⟨⟨y, u, b⟩, hfirst, hsecond⟩ := Option.bind_eq_some_iff.mp hp
    exact (h.next hfirst).1.next hsecond
  · exact h.next hp

/-- A task that begins does nothing that matters, unless it passed its check. -/
theorem perform_begin (hrest : task.rest = task.op.run) (hcallback : isCallback task.op = false)
    (hentered : task.entered = false) (hp : task.perform e s = some (rest, s', a)) :
    (checks task.op = true ∧ s.initialized = true) ∨ lineCalls e task.op = true ∨
      (rest.Only Harmless ∧ ∀ b ∈ a, Harmless b) := by
  by_cases hchecks : checks task.op = true
  · by_cases hs : s.initialized = true
    · exact Or.inl ⟨hchecks, hs⟩
    · refine Or.inr (Or.inr ?_)
      rcases checked_op hchecks with h | ⟨k, hk, hfree⟩
      · exact perform_only (by rwa [hrest]) hp
      · have hnext : task.rest.next e s = some (k s, s, none) := by
          rw [hrest, hk]
          rfl
        have hfree := hfree s (Bool.not_eq_true _ ▸ hs)
        unfold Task.perform at hp
        rw [hnext] at hp
        split at hp
        · exact hfree.next hp
        · cases hp
          exact ⟨hfree, by simp⟩
  · by_cases hline : lineCalls e task.op = true
    · exact Or.inr (Or.inl hline)
    · refine Or.inr (Or.inr ?_)
      rcases task with ⟨op, rest, entered, awaiting⟩
      dsimp only at hrest hcallback hentered hchecks hline
      subst hrest
      cases op with
      | init userAgent =>
        have hinit : (Op.init userAgent).run.Only Harmless :=
          Traced.Only.bind (harmless_engineInit userAgent) fun _ ↦ trivial
        exact perform_only hinit hp
      | setEventCallback present =>
        exact perform_only (harmless_of_shimFree (shimFree_withLock (shimFree_modify _))) hp
      | ipcConnect client =>
        exact perform_only (harmless_of_shimFree (shimFree_withLock (shimFree_modify _))) hp
      | ipcLine client line =>
        obtain ⟨k, hk, hfree⟩ := harmless_ipcLine (Bool.not_eq_true _ ▸ hline)
        have hperform : Task.perform ⟨.ipcLine client line, Core.ipcLine client line, entered,
            awaiting⟩ e s = some (k e, s, none) := by
          rw [Task.perform, hk]
          cases entered <;> rfl
        cases hperform.symm.trans hp
        exact ⟨hfree, by simp⟩
      | _ => first | exact absurd rfl hchecks | cases hcallback

end Steps

section Runs

variable {c c' : Process} {m : Move}

/-- Threads inside the gate are harmless unless PJSIP is up. -/
structure Guarded (c : Process) : Prop where
  entered : ∀ i, ∀ task ∈ c.tasks i, task.entered = true →
    c.up = true ∨ task.rest.Only Harmless
  fresh : ∀ i, ∀ task ∈ c.tasks i, task.entered = false →
    isCallback task.op = false ∧ task.rest = task.op.run
  ends : ∀ i, ∀ task ∈ c.tasks i, task.rest.Ends IsShutdown Harmless

/-- At the start there are no threads. -/
theorem guarded_initial : Guarded Process.initial where
  entered _ _ hm := by cases hm
  fresh _ _ hm := by cases hm
  ends _ _ hm := by cases hm

/-- Who has a task after a change of one thread. -/
theorem mem_update {tasks : Nat → Option Task} {i j : Nat} {new : Option Task} {task : Task}
    (h : task ∈ Function.update tasks i new j) :
    (j = i ∧ task ∈ new) ∨ (j ≠ i ∧ task ∈ tasks j) := by
  by_cases hj : j = i
  · subst hj
    rw [Function.update_self] at h
    exact Or.inl ⟨rfl, h⟩
  · rw [Function.update_of_ne hj] at h
    exact Or.inr ⟨hj, h⟩

/-- Beginning an operation. -/
theorem Guarded.begin (h : Guarded c) {i : Nat} {op : Op} (hop : isCallback op = false) :
    Guarded { c with tasks := Function.update c.tasks i (some ⟨op, op.run, false, none⟩) } where
  entered j task hj hentered := by
    rcases mem_update hj with ⟨-, hnew⟩ | ⟨-, hold⟩
    · cases hnew
      cases hentered
    · exact h.entered j task hold hentered
  fresh j task hj hentered := by
    rcases mem_update hj with ⟨-, hnew⟩ | ⟨-, hold⟩
    · cases hnew
      exact ⟨hop, rfl⟩
    · exact h.fresh j task hold hentered
  ends j task hj := by
    rcases mem_update hj with ⟨-, hnew⟩ | ⟨-, hold⟩
    · cases hnew
      exact ends_op op
    · exact h.ends j task hold

/-- An operation that is done. -/
theorem Guarded.finish (h : Guarded c) {i : Nat} :
    Guarded { c with tasks := Function.update c.tasks i none } where
  entered j task hj hentered := by
    rcases mem_update hj with ⟨-, hnew⟩ | ⟨-, hold⟩
    · cases hnew
    · exact h.entered j task hold hentered
  fresh j task hj hentered := by
    rcases mem_update hj with ⟨-, hnew⟩ | ⟨-, hold⟩
    · cases hnew
    · exact h.fresh j task hold hentered
  ends j task hj := by
    rcases mem_update hj with ⟨-, hnew⟩ | ⟨-, hold⟩
    · cases hnew
    · exact h.ends j task hold

/-- The shim operation of a step. -/
theorem issues_step {i : Nat} {task : Task} {e : Env} {rest : Eng Unit} {s : Engine}
    {a : Option Action} (hi : task ∈ c.tasks i)
    (hp : task.perform e c.engine = some (rest, s, a)) : c.issues (.step i e) = shimOf a := by
  change ((c.tasks i).bind fun task ↦
    (task.perform e c.engine).bind fun next ↦ shimOf next.2.2) = shimOf a
  rw [show c.tasks i = some task from hi, Option.bind_some, hp, Option.bind_some]

/-- PJSIP stays up but for `pd_shutdown`. -/
theorem advance_up {i : Nat} {task : Task} {e : Env} {rest : Eng Unit} {s : Engine}
    {a : Option Action} (ha : shimOf a ≠ some .pdShutdown) (h : c.up = true) :
    (c.advance i task e rest s a).up = true := by
  have hany : (shimOf a).any endsPjsip = false := by
    rw [Option.any_eq_false]
    intro call hcall
    rw [← Bool.not_eq_true]
    exact fun hends ↦ ha (eq_of_endsPjsip hends ▸ hcall)
  change ((c.up || task.initReturns e) && !(shimOf a).any endsPjsip) = true
  rw [h, hany]
  rfl

/-- The step of a task that is not over. -/
theorem Guarded.advance (h : Guarded c) {i : Nat} {task : Task} {e : Env} {rest : Eng Unit}
    {s : Engine} {a : Option Action} (hi : task ∈ c.tasks i) (hC : Timely c (.step i e))
    (hp : task.perform e c.engine = some (rest, s, a)) :
    (c.up = true ∨ (rest.Only Harmless ∧ ∀ b ∈ a, Harmless b)) ∧
      Guarded (c.advance i task e rest s a) := by
  obtain ⟨hbegin, hshut⟩ := hC task hi
  have hissues := issues_step hi hp
  have hends := perform_ends (h.ends i task hi) hp
  -- Whoever does more than `pd_init` is inside the gate, where PJSIP is up.
  have hown : c.up = true ∨ (rest.Only Harmless ∧ ∀ b ∈ a, Harmless b) := by
    by_cases hentered : task.entered = true
    · exact (h.entered i task hi hentered).imp_right fun hfree ↦ perform_only hfree hp
    · rw [Bool.not_eq_true] at hentered
      obtain ⟨hcallback, hrest⟩ := h.fresh i task hi hentered
      rcases perform_begin hrest hcallback hentered hp with ⟨hchecks, hs⟩ | hline | hfree
      · exact Or.inl ((hbegin hentered).1 hchecks hs)
      · exact Or.inl ((hbegin hentered).2 hline)
      · exact Or.inr hfree
  refine ⟨hown, ?_, ?_, ?_⟩
  · intro j other hj hentered
    by_cases hlast : shimOf a = some .pdShutdown
    · -- After `pd_shutdown` all that are inside are harmless.
      refine Or.inr ?_
      rcases mem_update hj with ⟨-, hnew⟩ | ⟨hne, hold⟩
      · cases hnew
        exact hends.2 (.shim .pdShutdown) (eq_of_shimOf hlast) rfl
      · exact hshut (hissues.trans hlast) j hne other hold hentered
    · have hup : c.up = true → (c.advance i task e rest s a).up = true := advance_up hlast
      rcases mem_update hj with ⟨-, hnew⟩ | ⟨-, hold⟩
      · cases hnew
        exact hown.imp hup And.left
      · exact (h.entered j other hold hentered).imp_left hup
  · intro j other hj hentered
    rcases mem_update hj with ⟨-, hnew⟩ | ⟨-, hold⟩
    · cases hnew
      cases hentered
    · exact h.fresh j other hold hentered
  · intro j other hj
    rcases mem_update hj with ⟨-, hnew⟩ | ⟨-, hold⟩
    · cases hnew
      exact hends.1
    · exact h.ends j other hold

/-- Every timely step stays within the gate and calls the shim only while PJSIP is up. -/
theorem Guarded.step (h : Guarded c) (hC : Timely c m) (hs : c.step m = some c') :
    Guarded c' ∧ ∀ call ∈ c.issues m, isInit call = true ∨ c.up = true := by
  cases m with
  | begin i op =>
    simp only [Process.step] at hs
    split at hs
    · next hop =>
      cases hs
      exact ⟨h.begin hop.2.1, fun call hcall ↦ by cases hcall⟩
    · cases hs
  | callback s =>
    simp only [Process.step] at hs
    split at hs
    · cases hs
      exact ⟨⟨h.entered, h.fresh, h.ends⟩, fun call hcall ↦ by cases hcall⟩
    · cases hs
  | step i e =>
    obtain ⟨task, hi, hc'⟩ := Option.map_eq_some_iff.mp hs
    cases hp : task.perform e c.engine with
    | none =>
      rw [hp] at hc'
      cases hc'
      refine ⟨h.finish, fun call hcall ↦ ?_⟩
      have hnone : c.issues (.step i e) = none := by
        change ((c.tasks i).bind fun task ↦
          (task.perform e c.engine).bind fun next ↦ shimOf next.2.2) = none
        rw [hi, Option.bind_some, hp, Option.bind_none]
      rw [hnone] at hcall
      cases hcall
    | some next =>
      obtain ⟨rest, s, a⟩ := next
      rw [hp] at hc'
      cases hc'
      obtain ⟨hown, hguarded⟩ := h.advance hi hC hp
      refine ⟨hguarded, fun call hcall ↦ ?_⟩
      rw [issues_step hi hp] at hcall
      rcases hown with hup | ⟨-, hfree⟩
      · exact Or.inr hup
      · have hcall := hfree _ (eq_of_shimOf hcall)
        cases call with
        | pdInit userAgent => exact Or.inl rfl
        | _ => exact absurd hcall id

/-- In every timely run, whatever the threads and their interleaving, a shim operation other than
`pd_init` is called only after a `pd_init` returned 0 and before the next `pd_shutdown`. -/
theorem lifecycle_gate {ms : List Move}
    (path : Path Process.step Timely Process.initial ms c) :
    ∀ ns m u, ns ++ [m] <+: ms → ns.foldlM Process.step Process.initial = some u →
      ∀ call ∈ u.issues m, isInit call = true ∨ u.up = true := by
  intro ns m u hpre hrun
  have hC := (Path.iff_forall path.foldlM_eq).mp path ns m u hpre hrun
  have hguarded : Guarded u :=
    (path.of_prefix ((List.prefix_append ns [m]).trans hpre) hrun).invariant guarded_initial
      fun u m v hu hC hs ↦ (hu.step hC hs).1
  obtain ⟨v, hv⟩ : ∃ v, u.step m = some v := by
    obtain ⟨ls, rfl⟩ := hpre
    have hall := path.foldlM_eq
    rw [List.foldlM_append] at hall
    obtain ⟨v, hv, -⟩ := Option.bind_eq_some_iff.mp hall
    rw [List.foldlM_append, hrun] at hv
    exact ⟨v, by simpa using hv⟩
  exact (hguarded.step hC hv).2

/-- Steps of thread 0. -/
def steps (n : Nat) (e : Env) : List Move := List.replicate n (.step 0 e)

/-- The thread has nothing to check and does not call `pd_shutdown`. -/
def plain (c : Process) : Move → Bool
  | .step i e => (c.tasks i).all (fun task ↦ !checks task.op && !lineCalls e task.op) &&
      !(c.issues (.step i e)).any endsPjsip
  | _ => true

/-- Plain steps are timely. -/
theorem timely_of_plain (h : plain c m = true) : Timely c m := by
  cases m with
  | step i e =>
    intro task hi
    obtain ⟨htask, hissues⟩ := Bool.and_eq_true_iff.mp h
    rw [show c.tasks i = some task from hi, Option.all_some, Bool.and_eq_true,
      Bool.not_eq_true', Bool.not_eq_true'] at htask
    refine ⟨fun _ ↦ ?_, fun hshut ↦ ?_⟩
    · rw [htask.1, htask.2]
      exact ⟨fun h ↦ absurd h Bool.false_ne_true, fun h ↦ absurd h Bool.false_ne_true⟩
    · rw [hshut] at hissues
      cases hissues
  | _ => trivial

/-- A thread begins `engine_init` and sets `INITIALIZED`. -/
def startUp : List Move := [.begin 0 (.init .null), .step 0 quietEnv]

/-- The call of `pd_init`, as an instance. -/
theorem lifecycle_gate_startUp : ∃ u, startUp.foldlM Process.step Process.initial = some u ∧
    ∀ call ∈ u.issues (.step 0 quietEnv), isInit call = true ∨ u.up = true := by
  have guarded : (((startUp ++ [Move.step 0 quietEnv]).foldlM
      (fun c m ↦ if plain c m = true then c.step m else none) Process.initial).isSome) = true := rfl
  obtain ⟨c, hc⟩ := Option.isSome_iff_exists.mp guarded
  have path := (Path.of_guarded hc).imp fun _ _ ↦ timely_of_plain
  exact ⟨_, rfl, lifecycle_gate path startUp (.step 0 quietEnv) _ List.prefix_rfl rfl⟩

/-- A client's answer: echo cancellation is to be switched on. -/
def echoEnv : Env := { quietEnv with parseJson := fun _ ↦ some (.obj
  [("type", .str "SetEcEnabled"), ("payload", .obj [("enabled", .bool true)])]) }

/-- The line of a client after `engine_init` and `engine_shutdown`. -/
def lateLine : List Move :=
  .begin 0 (.init .null) :: steps 29 quietEnv ++ .begin 0 .shutdown :: steps 26 quietEnv ++
    [.begin 0 (.ipcLine 0 ""), .step 0 echoEnv]

/-- A second thread plays a tone while the first waits for `pd_init`. -/
def earlyTone : List Move :=
  startUp ++ [.step 0 quietEnv, .begin 1 (.playDtmf (.text "1")), .step 1 quietEnv]

/-- The shim is called after `pd_shutdown`, and before `pd_init` has returned. -/
theorem shim_called_while_down :
    (∃ u, lateLine.foldlM Process.step Process.initial = some u ∧ u.up = false ∧
      u.issues (.step 0 echoEnv) = some (.pdSetEcEnabled true)) ∧
    ∃ u, earlyTone.foldlM Process.step Process.initial = some u ∧ u.up = false ∧
      u.issues (.step 1 quietEnv) = some (.pdAudPlayDtmf (.text "1")) := by
  have hlate : (lateLine.foldlM Process.step Process.initial).map (fun u ↦
      (u.up, u.issues (.step 0 echoEnv))) = some (false, some (.pdSetEcEnabled true)) := rfl
  have hearly : (earlyTone.foldlM Process.step Process.initial).map (fun u ↦
      (u.up, u.issues (.step 1 quietEnv))) = some (false, some (.pdAudPlayDtmf (.text "1"))) := rfl
  obtain ⟨u, hu, hissues⟩ := Option.map_eq_some_iff.mp hlate
  obtain ⟨v, hv, hissues'⟩ := Option.map_eq_some_iff.mp hearly
  rw [Prod.mk.injEq] at hissues hissues'
  exact ⟨⟨u, hu, hissues⟩, v, hv, hissues'⟩

end Runs

end PacketDial.System
