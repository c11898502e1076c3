import PacketDial.Lib.Deadlock
import PacketDial.System.LockDiscipline

/-!
# Commands and callbacks do not wait for each other

PJSIP holds its library lock for the whole of every callback and takes it in every operation on a
call or an account. A command and a callback never wait for each other, as both take their locks in
the order of their ranks, with the library lock below all others; the exception is `CallSendDtmf`,
which calls PJSIP under `CALLS`, next to a callback that locks `CALLS`.
-/

namespace PacketDial.System

open PacketDial.Core PacketDial.Lib

/-- A mutex of the engine, or PJSIP's library lock. -/
inductive Lock where
  | mutex (m : Mutex)
  | library
  deriving DecidableEq

/-- The shim calls that take the library lock: the operations on calls and on accounts. -/
def usesLibrary : ShimCall → Bool
  | .pdInit _ | .pdShutdown | .pdAudDevList | .pdAudSetDevs .. | .pdAudGetDevs
  | .pdSetGlobalDnd _ | .pdBlfSubscribe .. | .pdBlfUnsubscribe _ | .pdSetGlobalCodecPriority _
  | .pdGetGlobalCodecPriority | .pdSetGlobalDtmfMethod _ | .pdGetGlobalDtmfMethod
  | .pdSetGlobalAutoAnswer .. | .pdGetGlobalAutoAnswer | .pdSetEcEnabled _
  | .pdSetMicAmplification _ | .pdAudPlayDtmf _ => false
  | _ => true

/-- The lock actions of an action. -/
def actionLocks : Action → List (LockAct Lock)
  | .lock (.acquire m) => [.acquire (.mutex m)]
  | .lock (.release m) => [.release (.mutex m)]
  | .shim call => if usesLibrary call then [.acquire .library, .release .library] else []
  | _ => []

/-- The engine's locks and the library lock, which a thread may take twice. -/
def engineLocks : LockModel Action Lock where
  acts := actionLocks
  reentrant
    | .library => true
    | .mutex _ => false

/-- A thread of the engine. -/
abbrev EngineThread := Thread Env Engine Action Lock

/-- A thread that runs a command. -/
def commandThread (e : Env) (cmd : String) (p : Json) : EngineThread where
  env := e
  pending := []
  prog := discard (dispatchCommand cmd p)
  closing := []
  held := []

/-- A thread of PJSIP that runs a callback under the library lock. -/
def callbackThread (e : Env) (op : Op) : EngineThread where
  env := e
  pending := [.acquire .library]
  prog := op.run
  closing := [.release .library]
  held := []

/-- A command and a callback that start in the state `s`. -/
def race (s : Engine) (e e' : Env) (cmd : String) (p : Json) (op : Op) :
    Pair Env Engine Action Lock :=
  ⟨s, fun i ↦ if i then commandThread e cmd p else callbackThread e' op⟩

/-- The command calls PJSIP under `CALLS`. -/
def sendsDtmf (cmd : String) (p : Json) : Bool :=
  cmd = "CallSendDtmf" && (callIdField p).isSome && ((p.get "digits").asStr.bind cString).isSome

/-- The callback can lock `CALLS`. -/
def locksCalls : Op → Bool
  | .onIncomingCall .. | .onCallMedia .. => true
  | .onCallState _ invState => (invCallState invState).isSome
  | _ => false

section Ranks

/-- The library lock ranks below the mutexes. -/
def libraryRank : Lock → Nat
  | .library => 0
  | .mutex m => rank m + 1

/-- `CALLS` ranks below the library lock, the other mutexes above. -/
def dtmfRank : Lock → Nat
  | .library => 1
  | .mutex .calls => 0
  | .mutex m => rank m + 1

/-- The order of the mutexes is the same in both ranks. -/
theorem dtmfRank_lt {m n : Mutex} (h : rank m < rank n) :
    dtmfRank (.mutex m) < dtmfRank (.mutex n) := by
  cases m <;> cases n <;> first | decide | exact absurd h (by decide)

end Ranks

section Families

variable {γ δ : Type} {v : View Engine Action γ δ} {ρ : Lock → Nat} {base : List Lock}

/-- The locks of a thread that holds some mutexes over `base`. -/
def locksOver (base : List Lock) (held : List Mutex) : List Lock := held.map .mutex ++ base

/-- The run takes its locks in the order of a rank and gives them back. -/
def InRank (ρ : Lock → Nat) (base : List Lock) (held : List Mutex) (_ : Engine) (t : List Action)
    (_ : Engine) : Prop :=
  GivesBack (InOrder engineLocks ρ) (locksOver base held) (engineLocks.trace t)

/-- The lock actions of a concatenation. -/
theorem trace_append (t u : List Action) :
    engineLocks.trace (t ++ u) = engineLocks.trace t ++ engineLocks.trace u :=
  List.flatMap_append

instance (held : List Mutex) : Traced.Composable (InRank ρ base held) where
  nil _ := givesBack_nil _
  append h h' := by
    rw [InRank, trace_append]
    exact GivesBack.append h h'

/-- An action that is neither on a lock nor a shim call takes no locks. -/
theorem acts_eq_nil {a : Action} (hl : lockAct a = none) (hs : isShim a = false) :
    engineLocks.acts a = [] := by
  cases a with
  | lock act => cases hl
  | shim call => cases hs
  | _ => rfl

/-- A run without lock actions. -/
theorem inRank_action {held : List Mutex} {a : Action} (s : Engine)
    (h : engineLocks.acts a = []) : InRank ρ base held s [a] s := by
  unfold InRank LockModel.trace
  rw [List.flatMap_cons, h]
  exact givesBack_nil _

/-- The lock actions of a critical section. -/
theorem trace_guard (m : Mutex) (t : List Action) :
    engineLocks.trace (.lock (.acquire m) :: (t ++ [.lock (.release m)])) =
      .acquire (.mutex m) :: (engineLocks.trace t ++ [.release (.mutex m)]) := by
  simp [LockModel.trace, engineLocks, actionLocks]

/-- A critical section of a mutex that ranks above all locks held. -/
theorem inRank_guard {held : List Mutex} {m : Mutex} {s s' : Engine} {t : List Action}
    (hm : ∀ l ∈ locksOver base held, ρ l < ρ (.mutex m))
    (h : InRank ρ base (m :: held) s t s') :
    InRank ρ base held s (.lock (.acquire m) :: (t ++ [.lock (.release m)])) s' := by
  unfold InRank
  rw [trace_guard]
  exact GivesBack.guarded (Or.inr hm) h

/-- A shim call where the library lock can be taken. -/
theorem inRank_shim {held : List Mutex} {call : ShimCall} (s : Engine)
    (h : InOrder engineLocks ρ (locksOver base held) .library) :
    InRank ρ base held s [.shim call] s := by
  unfold InRank LockModel.trace engineLocks
  simp only [List.flatMap_cons, List.flatMap_nil, actionLocks]
  split
  · exact GivesBack.guarded h (givesBack_nil _)
  · exact givesBack_nil _

/-- A mutex that ranks above the mutexes held ranks above the locks held. -/
theorem libraryRank_above {held : List Mutex} {m : Mutex} (hm : Above held m)
    (hbase : base ⊆ [.library]) :
    ∀ l ∈ locksOver base held, libraryRank l < libraryRank (.mutex m) := by
  intro l hl
  rcases List.mem_append.mp hl with hl | hl
  · obtain ⟨n, hn, rfl⟩ := List.mem_map.mp hl
    exact Nat.succ_lt_succ (hm n hn)
  · cases List.mem_singleton.mp (hbase hl)
    exact Nat.succ_pos _

/-- Commands take the library lock under no other. -/
instance : Blind v (InRank libraryRank []) where
  update _ := givesBack_nil _
  emit s _ hl hs := inRank_action s (acts_eq_nil hl hs)
  shim s _ := inRank_shim s (Or.inr (by simp [locksOver]))
  guard hm h := inRank_guard (libraryRank_above hm (List.nil_subset _)) h
  inner _ := givesBack_nil _

/-- Callbacks hold the library lock. -/
instance : Blind v (InRank libraryRank [.library]) where
  update _ := givesBack_nil _
  emit s _ hl hs := inRank_action s (acts_eq_nil hl hs)
  shim s _ := inRank_shim s (Or.inl ⟨by simp [locksOver], rfl⟩)
  guard hm h := inRank_guard (libraryRank_above hm (List.Subset.refl _)) h
  inner _ := givesBack_nil _

/-- They can take it again under any lock. -/
instance : Lenient v (InRank libraryRank [.library]) where
  shim s _ := inRank_shim s (Or.inl ⟨by simp [locksOver], rfl⟩)

/-- Where `CALLS` ranks below the library lock, it may also be taken under `CALLS`. -/
instance : Blind v (InRank dtmfRank []) where
  update _ := givesBack_nil _
  emit s _ hl hs := inRank_action s (acts_eq_nil hl hs)
  shim s _ := inRank_shim s (Or.inr (by simp [locksOver]))
  guard {held m _ _ _} hm h := by
    refine inRank_guard (fun l hl ↦ ?_) h
    rw [locksOver, List.append_nil] at hl
    obtain ⟨n, hn, rfl⟩ := List.mem_map.mp hl
    exact dtmfRank_lt (hm n hn)
  inner _ := givesBack_nil _

/-- The policy of a callback that leaves `CALLS` alone. -/
def SparesCalls (held : List Lock) (l : Lock) : Prop :=
  InOrder engineLocks dtmfRank held l ∧ l ≠ .mutex .calls

instance (held : List Lock) (l : Lock) : Decidable (SparesCalls held l) :=
  inferInstanceAs (Decidable (_ ∧ _))

/-- The run takes no `CALLS`, if that is among the locks it may count on. -/
def Spared (held : List Mutex) (_ : Engine) (t : List Action) (_ : Engine) : Prop :=
  Mutex.calls ∈ held →
    GivesBack SparesCalls (locksOver [.library] (held.erase .calls)) (engineLocks.trace t)

instance (held : List Mutex) : Traced.Composable (Spared held) where
  nil _ _ := givesBack_nil _
  append h h' hcalls := by
    rw [trace_append]
    exact GivesBack.append (h hcalls) (h' hcalls)

/-- Above `CALLS` no run takes `CALLS`. -/
instance : Blind v Spared where
  update _ _ := givesBack_nil _
  emit {_ a} s _ hl hs _ := by
    rw [LockModel.trace, List.flatMap_cons, acts_eq_nil hl hs]
    exact givesBack_nil _
  shim _ _ hcalls := absurd hcalls (List.not_mem_nil)
  guard {held m _ _ _} hm h hcalls := by
    have hne : m ≠ .calls := by
      rintro rfl
      exact hm.not_mem hcalls
    have hbody := h (List.mem_cons_of_mem m hcalls)
    rw [List.erase_cons_tail (by simpa using hne)] at hbody
    rw [trace_guard]
    refine GivesBack.guarded ⟨Or.inr fun l hl ↦ ?_, by simpa using hne⟩ hbody
    rcases List.mem_append.mp hl with hl | hl
    · obtain ⟨n, hn, rfl⟩ := List.mem_map.mp hl
      exact dtmfRank_lt (hm n (List.mem_of_mem_erase hn))
    · cases List.mem_singleton.mp hl
      cases m <;> first | decide | exact absurd rfl hne
  inner _ _ := givesBack_nil _

end Families

section Threads

variable {ρ : Lock → Nat} {held : List Mutex} {α β : Type} {e : Env} {cmd : String} {p : Json}
  {op : Op}

/-- Whatever others do, the computation takes its locks in order. -/
def Ranked (ρ : Lock → Nat) (held : List Mutex) (x : Eng α) : Prop :=
  ∀ s t a s', x.Exec (fun _ _ ↦ True) s t a s' →
    Ordered engineLocks ρ (locksOver [] held) (engineLocks.trace t)

/-- Whatever others do, the computation waits for itself, or goes wrong before. -/
def WaitsForItself (ρ : Lock → Nat) (held : List Mutex) (x : Eng α) : Prop :=
  ∀ s t a s' rest, x.Exec (fun _ _ ↦ True) s t a s' →
    Ordered engineLocks ρ (locksOver [] held) (engineLocks.trace t ++ rest)

/-- An execution of a computation that takes its locks in rank. -/
theorem inRank_exec {base : List Lock} {x : Eng α} (hx : Traced.Admits (InRank ρ base held) x)
    {s s' : Engine} {t : List Action} {a : α} (h : x.Exec (fun _ _ ↦ True) s t a s') :
    InRank ρ base held s t s' :=
  hx s t a s' (h.mono fun _ _ _ ↦ givesBack_nil _)

/-- A computation that takes its locks in rank is orderly. -/
theorem orderly_of_inRank {x : Eng α} (hx : Traced.Admits (InRank ρ [] held) x) :
    Ranked ρ held x := by
  intro s t a s' h
  have hordered := Ordered.of_replay (inRank_exec hx h) (u := []) trivial
  rwa [List.append_nil] at hordered

/-- A computation that waits for itself is orderly. -/
theorem WaitsForItself.orderly {x : Eng α} (hx : WaitsForItself ρ held x) : Ranked ρ held x := by
  intro s t a s' h
  have hordered := hx s t a s' [] h
  rwa [List.append_nil] at hordered

/-- A part in rank comes first. -/
theorem orderly_bind {x : Eng α} (hx : Traced.Admits (InRank ρ [] held) x) {f : α → Eng β}
    (hf : ∀ a, Ranked ρ held (f a)) : Ranked ρ held (x >>= f) := by
  intro s t b s' h
  obtain ⟨t₁, a, s₁, t₂, h₁, h₂, rfl⟩ := Traced.exec_bind (fun _ ↦ trivial) h
  rw [trace_append]
  exact Ordered.of_replay (inRank_exec hx h₁) (hf _ _ _ _ _ h₂)

/-- A part in rank comes before one that waits for itself. -/
theorem waits_bind {x : Eng α} (hx : Traced.Admits (InRank ρ [] held) x) {f : α → Eng β}
    (hf : ∀ a, WaitsForItself ρ held (f a)) : WaitsForItself ρ held (x >>= f) := by
  intro s t b s' rest h
  obtain ⟨t₁, a, s₁, t₂, h₁, h₂, rfl⟩ := Traced.exec_bind (fun _ ↦ trivial) h
  rw [trace_append, List.append_assoc]
  exact Ordered.of_replay (inRank_exec hx h₁) (hf _ _ _ _ _ _ h₂)

/-- What comes after a computation that waits for itself does not matter. -/
theorem WaitsForItself.bind {x : Eng α} (hx : WaitsForItself ρ held x) (f : α → Eng β) :
    WaitsForItself ρ held (x >>= f) := by
  intro s t b s' rest h
  obtain ⟨t₁, a, s₁, t₂, h₁, -, rfl⟩ := Traced.exec_bind (fun _ ↦ trivial) h
  rw [trace_append, List.append_assoc]
  exact hx _ _ _ _ _ h₁

/-- A critical section of a mutex that is held waits for itself. -/
theorem waits_withLock_held {m : Mutex} (hm : m ∈ held) (x : Eng α) :
    WaitsForItself ρ held (withLock m x) := by
  intro s t a s' rest h
  obtain ⟨t₁, s₁, -, -, rfl⟩ := exec_withLock (fun _ ↦ trivial) h
  rw [trace_guard]
  exact Or.inl ⟨by simpa [locksOver] using hm, rfl⟩

/-- A critical section waits for itself when its body does. -/
theorem waits_withLock {m : Mutex} {x : Eng α}
    (hm : ∀ l ∈ locksOver [] held, ρ l < ρ (.mutex m)) (hx : WaitsForItself ρ (m :: held) x) :
    WaitsForItself ρ held (withLock m x) := by
  intro s t a s' rest h
  obtain ⟨t₁, s₁, hbody, -, rfl⟩ := exec_withLock (fun _ ↦ trivial) h
  rw [trace_guard, List.cons_append, List.append_assoc]
  exact Or.inr ⟨Or.inr hm, hx _ _ _ _ _ hbody⟩

section Commands

variable [Blind callView (InRank ρ [])]

/-- The failure path of a registration waits for itself. -/
theorem waits_registerFailed (id : String) : WaitsForItself ρ [] (registerFailed id) := by
  unfold registerFailed
  dsimp only
  apply WaitsForItself.bind
  apply waits_withLock (by simp [locksOver])
  refine waits_bind (tame_setRegState id _) fun _ ↦ ?_
  exact ((waits_withLock_held (List.mem_singleton_self _) _).bind _).bind _

variable [Blind accountView (InRank ρ [])]

/-- `AccountRegister` is orderly. -/
theorem orderly_cmdAccountRegister (p : Json) : Ranked ρ [] (cmdAccountRegister p) := by
  have canLog : CanLog [] := by decide
  unfold cmdAccountRegister
  split
  · exact orderly_of_inRank (tame_pure _)
  · next id _ =>
    refine orderly_bind (tame_lookupForRegister id) fun found ↦ ?_
    split
    · exact orderly_of_inRank (tame_pure _)
    · refine orderly_bind (tame_beginRegistration id _) fun _ ↦ ?_
      split
      · exact orderly_of_inRank ((tame_logEngine canLog _ _).bind fun _ ↦ tame_pure _)
      · next acct args _ =>
        have add : Traced.Admits (InRank ρ [] []) (shim (.pdAccAdd args)) :=
          blind_shim (v := callView) rfl
        refine orderly_bind add fun pjAccId ↦ ?_
        split
        · exact (waits_registerFailed id).orderly
        · exact orderly_of_inRank (tame_registerStarted id _)

/-- The other commands take their locks in rank, where `CallSendDtmf` does. -/
theorem inRank_command (hreg : cmd ≠ "AccountRegister")
    (hdtmf : cmd = "CallSendDtmf" → Traced.Admits (InRank ρ [] []) (cmdCallSendDtmf p)) :
    Traced.Admits (InRank ρ [] []) (dispatchCommand cmd p) := by
  by_cases hcall : cmd ∈ callCommands
  · by_cases hcmd : cmd = "CallSendDtmf"
    · subst hcmd
      exact (hdtmf rfl).map _
    · exact mild_callCommand p hcall (fun h ↦ absurd h hcmd) fun _ ↦ inferInstance
  · exact tame_dispatchCommand p hcall hreg fun _ ↦ inferInstance

end Commands

/-- Mapping a result changes no lock. -/
theorem Ranked.map {x : Eng α} (hx : Ranked ρ held x) (g : α → β) : Ranked ρ held (g <$> x) := by
  intro s t b s' h
  obtain ⟨t₁, a, s₁, t₂, h₁, ⟨rfl, -, -⟩, rfl⟩ := Traced.exec_bind (fun _ ↦ trivial) h
  rw [List.append_nil]
  exact hx _ _ _ _ h₁

/-- A `CallSendDtmf` that does not call PJSIP takes its locks in rank. -/
theorem inRank_sendDtmf (hnot : sendsDtmf "CallSendDtmf" p = false) :
    Traced.Admits (InRank libraryRank [] []) (cmdCallSendDtmf p) := by
  have canLog : CanLog [] := by decide
  unfold cmdCallSendDtmf
  split
  · next callId digits hid hdigits =>
    have hnul : cString digits = none := by simpa [sendsDtmf, hid, hdigits] using hnot
    refine (tame_logEngine canLog _ _).bind fun _ ↦ ?_
    refine (tame_withLock (by decide) (tame_get.bind fun s ↦ ?_)).bind fun _ ↦ tame_pure _
    rw [hnul]
    split
    · next heq => cases heq
    · exact tame_pure _
  · exact tame_pure _

/-- Commands that do not call PJSIP under `CALLS` are orderly. -/
theorem orderly_command (hnot : sendsDtmf cmd p = false) :
    Ranked libraryRank [] (dispatchCommand cmd p) := by
  by_cases hreg : cmd = "AccountRegister"
  · subst hreg
    exact (orderly_cmdAccountRegister p).map _
  · apply orderly_of_inRank
    refine inRank_command hreg fun hcmd ↦ inRank_sendDtmf ?_
    rwa [hcmd] at hnot

/-- Where `CALLS` ranks below the library lock, every `CallSendDtmf` takes its locks in rank. -/
theorem inRank_dtmf (p : Json) : Traced.Admits (InRank dtmfRank [] []) (cmdCallSendDtmf p) := by
  have canLog : CanLog [] := by decide
  have send (pjId : Int) (digits : String) :
      Traced.Admits (InRank dtmfRank [] [.calls]) (shim (.pdCallSendDtmf pjId digits)) := by
    have order : InOrder engineLocks dtmfRank (locksOver [] [.calls]) .library := by decide
    have emit : Traced.Admits (InRank dtmfRank [] [.calls])
        (Traced.emit (.shim (.pdCallSendDtmf pjId digits)) : Eng Unit) :=
      Traced.admits_emit fun s ↦ inRank_shim s order
    exact emit.bind fun _ ↦ tame_ask.bind fun _ ↦ tame_pure _
  unfold cmdCallSendDtmf
  split
  · refine (tame_logEngine canLog _ _).bind fun _ ↦ ?_
    refine (tame_withLock (by decide) (tame_get.bind fun s ↦ ?_)).bind fun _ ↦ tame_pure _
    split
    · exact (send _ _).map _
    · exact tame_pure _
  · exact tame_pure _

/-- The other callbacks spare `CALLS`. -/
theorem spared_callback (hop : isCallback op = true) (hnot : locksCalls op = false) :
    Traced.Admits (Spared [.calls]) op.run := by
  have above : Above [.calls] .accounts := by decide
  cases op with
  | onCallState pjCallId invState =>
    have hnone : invCallState invState = none := by simpa [locksCalls] using hnot
    change Traced.Admits (Spared [.calls]) (pjsipOnCallState pjCallId invState)
    unfold pjsipOnCallState
    rw [hnone]
    exact tame_pure _
  | onLog level msg => exact tame_pjsipOnLog above level msg
  | onRegState pjAccId expires statusCode reason => exact tame_pjsipOnRegState above _ _ _ _
  | onSipMsg pjCallId isTx msg => exact tame_pjsipOnSipMsg above _ _ _
  | onTransferStatus pjCallId statusCode reason isFinal =>
    exact tame_pjsipOnTransferStatus above _ _ _ _
  | onBlfStatus uri state activity => exact tame_pjsipOnBlfStatus above _ _ _
  | onIncomingCall | onCallMedia => cases hnot
  | _ => cases hop

/-- A command thread is orderly when its command is. -/
theorem orderly_commandThread (e : Env) (h : Ranked ρ [] (dispatchCommand cmd p)) :
    (commandThread e cmd p).Orderly engineLocks ρ := by
  intro s t a s' hexec
  have hordered := h.map (Function.const _ ()) s t a s' hexec
  rw [← List.append_nil (engineLocks.trace t)] at hordered
  exact hordered

/-- A callback thread is orderly when its callback takes its locks in order over the library
lock. -/
theorem orderly_callbackThread (e : Env)
    (h : ∀ s t a s', op.run.Exec (fun _ _ ↦ True) s t a s' →
      GivesBack (InOrder engineLocks ρ) [.library] (engineLocks.trace t)) :
    (callbackThread e op).Orderly engineLocks ρ := by
  intro s t a s' hexec
  exact Or.inr ⟨Or.inr (by simp [callbackThread]), Ordered.of_replay (h s t a s' hexec) trivial⟩

/-- A command and a callback that are both orderly never wait for each other. -/
theorem race_orderly {s : Engine} {e e' : Env}
    (hcommand : (commandThread e cmd p).Orderly engineLocks ρ)
    (hcallback : (callbackThread e' op).Orderly engineLocks ρ) :
    (race s e e' cmd p op).Orderly engineLocks ρ where
  threads i := by
    cases i with
    | true => exact hcommand
    | false => exact hcallback
  apart _ hm := by cases hm

/-- A command that does not call PJSIP under `CALLS`, or a callback that leaves `CALLS` alone:
the race is orderly. -/
theorem exists_race_orderly (hop : isCallback op = true)
    (hnot : ¬ (sendsDtmf cmd p = true ∧ locksCalls op = true)) (s : Engine) (e e' : Env) :
    ∃ ρ, (race s e e' cmd p op).Orderly engineLocks ρ := by
  by_cases hdtmf : sendsDtmf cmd p = true
  · refine ⟨dtmfRank, race_orderly (orderly_commandThread e ?_) (orderly_callbackThread e' ?_)⟩
    · have hcmd : cmd = "CallSendDtmf" := by
        simp only [sendsDtmf, Bool.and_eq_true, decide_eq_true_eq] at hdtmf
        exact hdtmf.1.1
      subst hcmd
      exact orderly_of_inRank ((inRank_dtmf p).map _)
    · intro s t a s' hexec
      have hspared := spared_callback hop (by simpa [hdtmf] using hnot)
      have hback := hspared s t a s' (hexec.mono fun _ _ _ _ ↦ givesBack_nil _) (by decide)
      exact replay_mono (fun _ _ h ↦ h.1) hback
  · refine ⟨libraryRank, race_orderly (orderly_commandThread e ?_) (orderly_callbackThread e' ?_)⟩
    · exact orderly_command (by simpa using hdtmf)
    · intro s t a s' hexec
      have hrank : Traced.Admits (InRank libraryRank [.library] []) op.run := admits_callback hop
      exact inRank_exec hrank hexec

end Threads

section Standstill

variable {c : Pair Env Engine Action Lock} {s : Engine} {t : EngineThread} {α : Type}

/-- The callback runs up to a point where it has left `CALLS` alone. -/
theorem reaches_spared (hother : (c.threads true).held = [.mutex .calls])
    (ht : t.held = [.library]) {x : Eng α} (hx : Traced.Admits (Spared [.calls]) x)
    (f : α → Eng Unit) :
    (c.set false s { t with pending := [], prog := x >>= f }).Reaches engineLocks
      (c.set false (x.run t.env s).state
        { t with pending := [], prog := f (x.run t.env s).value }) := by
  have hback : replay SparesCalls [.library] (engineLocks.trace (x.run t.env s).trace) =
      some [.library] := hx.run t.env s (by decide)
  have hfree : replay (engineLocks.Free [.mutex .calls]) t.held
      (engineLocks.trace (x.run t.env s).trace) = some t.held := by
    rw [ht]
    refine replay_mono (fun held l hl ↦ ⟨by simpa using hl.2, fun hmem ↦ ?_⟩) hback
    rcases hl.1 with hre | habove
    · exact hre.2
    · exact absurd (habove l hmem) (lt_irrefl _)
  rw [← hother] at hfree
  exact Pair.reaches_run (i := false) hfree

/-- The thread is about to lock `CALLS`. -/
def StopsAtCalls (c : Pair Env Engine Action Lock) (s : Engine) (t : EngineThread) : Prop :=
  ∃ s' t', (c.set false s t).Reaches engineLocks (c.set false s' t') ∧
    t'.pending = [.acquire (.mutex .calls)] ∧ t'.held = [.library]

/-- A callback that comes to a critical section of `CALLS`. -/
theorem stops_withLock (ht : t.held = [.library]) {x : Eng α} {f : α → Eng Unit} :
    StopsAtCalls c s { t with pending := [], prog := withLock .calls x >>= f } :=
  ⟨_, _, Pair.reaches_set rfl, rfl, ht⟩

/-- A callback goes on until it comes to `CALLS`. -/
theorem StopsAtCalls.of_run (hother : (c.threads true).held = [.mutex .calls])
    (ht : t.held = [.library]) {x : Eng α} (hx : Traced.Admits (Spared [.calls]) x)
    {f : α → Eng Unit}
    (h : StopsAtCalls c (x.run t.env s).state
      { t with pending := [], prog := f (x.run t.env s).value }) :
    StopsAtCalls c s { t with pending := [], prog := x >>= f } := by
  obtain ⟨s', t', hreaches, ht'⟩ := h
  exact ⟨s', t', (reaches_spared hother ht hx f).trans hreaches, ht'⟩

/-- The engine has a call for the DTMF command, and routes for the callback. -/
structure Engaged (op : Op) (callId : UInt32) (s : Engine) : Prop where
  call : ∃ pjId, (s.calls.lookup callId).bind (·.pjsipCallId) = some pjId
  route : match op with
    | .onCallState pjCallId _ | .onCallMedia pjCallId _ =>
      ∃ id, s.pjsipCallMap.lookup pjCallId = some id
    | .onIncomingCall pjAccId .. => ∃ id, s.pjsipAccMap.lookup pjAccId = some id
    | _ => True

/-- A callback that can lock `CALLS` comes to it. -/
theorem stops_callback {op : Op} {callId : UInt32} (hcalls : locksCalls op = true)
    (hs : Engaged op callId s) (hother : (c.threads true).held = [.mutex .calls])
    (ht : t.held = [.library]) :
    StopsAtCalls c s { t with pending := [], prog := op.run } := by
  have hroute := hs.route
  cases op with
  | onCallState pjCallId invState =>
    obtain ⟨newState, hstate⟩ := Option.isSome_iff_exists.mp hcalls
    obtain ⟨id, hid⟩ := hroute
    have route : Traced.Admits (Spared [.calls]) (routeState newState pjCallId) :=
      mild_routeState (by decide) newState pjCallId
    have hvalue : ((routeState newState pjCallId).run t.env s).value = some id := by
      rw [← hid]
      cases newState <;> rfl
    change StopsAtCalls c s { t with pending := [], prog := pjsipOnCallState pjCallId invState }
    unfold pjsipOnCallState
    rw [hstate]
    refine StopsAtCalls.of_run hother ht route ?_
    rw [hvalue]
    exact stops_withLock ht
  | onCallMedia pjCallId active =>
    obtain ⟨id, hid⟩ := hroute
    have route : Traced.Admits (Spared [.calls]) (routeMedia pjCallId) :=
      blind_withLock callView (by decide) (tame_get.bind fun _ ↦ tame_pure _)
    have hvalue : ((routeMedia pjCallId).run t.env s).value = some id := hid
    change StopsAtCalls c s { t with pending := [], prog := pjsipOnCallMedia pjCallId active }
    unfold pjsipOnCallMedia
    refine StopsAtCalls.of_run hother ht route ?_
    rw [hvalue]
    exact stops_withLock ht
  | onIncomingCall pjAccId pjCallId fromUri =>
    obtain ⟨id, hid⟩ := hroute
    have route : Traced.Admits (Spared [.calls]) (withLock .pjsipAccMap do
        return (← Traced.get).pjsipAccMap.lookup pjAccId) :=
      blind_withLock callView (by decide) (tame_get.bind fun _ ↦ tame_pure _)
    change StopsAtCalls c s
      { t with pending := [], prog := pjsipOnIncomingCall pjAccId pjCallId fromUri }
    unfold pjsipOnIncomingCall
    dsimp only
    refine StopsAtCalls.of_run hother ht route ?_
    have hvalue : ((withLock .pjsipAccMap do
        return (← Traced.get).pjsipAccMap.lookup pjAccId : Eng (Option String)).run
          t.env s).value = some id := hid
    rw [hvalue]
    dsimp only
    refine StopsAtCalls.of_run hother ht mild_fetchNextCallId ?_
    unfold trackCall
    rw [bind_assoc]
    refine StopsAtCalls.of_run hother ht (mild_pushCallState (by decide) (by decide) _) ?_
    rw [bind_assoc]
    exact stops_withLock ht
  | _ => cases hcalls

/-- A call for the DTMF command, whatever else there is. -/
def oneCall (callId : UInt32) : AList fun _ : UInt32 ↦ Call :=
  AList.insert callId (newCall callId "a" "sip:x@y" .outgoing 0) ∅

/-- An engine that is engaged for a callback and a DTMF command. -/
def engaged (op : Op) (callId : UInt32) : Engine :=
  let s := { Engine.initial with calls := oneCall callId }
  match op with
  | .onCallState pjCallId _ | .onCallMedia pjCallId _ =>
    { s with pjsipCallMap := AList.insert pjCallId callId ∅ }
  | .onIncomingCall pjAccId .. => { s with pjsipAccMap := AList.insert pjAccId "a" ∅ }
  | _ => s

/-- It is engaged. -/
theorem engaged_engaged (op : Op) (callId : UInt32) : Engaged op callId (engaged op callId) where
  call := by
    have hcalls : (engaged op callId).calls = oneCall callId := by cases op <;> rfl
    refine ⟨0, ?_⟩
    rw [hcalls, oneCall, AList.lookup_insert]
    rfl
  route := by
    cases op with
    | onCallState | onCallMedia => exact ⟨callId, AList.lookup_insert _⟩
    | onIncomingCall => exact ⟨"a", AList.lookup_insert _⟩
    | _ => trivial

/-- An engine with the same tables is engaged as well. -/
theorem Engaged.congr {op : Op} {callId : UInt32} {s' : Engine} (h : Engaged op callId s)
    (htables : tables s' = tables s) (haccounts : accountTables s' = accountTables s) :
    Engaged op callId s' := by
  have hcalls : s'.calls = s.calls := congrArg CallTables.calls htables
  have hmap : s'.pjsipCallMap = s.pjsipCallMap := congrArg CallTables.callMap htables
  have hacc : s'.pjsipAccMap = s.pjsipAccMap := congrArg AccountTables.accMap haccounts
  constructor
  · rw [hcalls]
    exact h.call
  · have hroute := h.route
    rw [hmap, hacc]
    exact hroute

/-- A thread whose next lock action is to take a free lock takes it. -/
theorem reaches_acquire {i : Bool} {l : Lock} {rest : List (LockAct Lock)}
    (hother : l ∉ (c.threads !i).held) (hheld : l ∉ t.held)
    (hpending : t.pending = .acquire l :: rest) :
    (c.set i s t).Reaches engineLocks
      (c.set i s { t with pending := rest, held := l :: t.held }) := by
  have hfree : engineLocks.Free (c.threads !i).held t.held l := ⟨hother, fun h ↦ absurd h hheld⟩
  apply Pair.reaches_set
  unfold Thread.step
  rw [hpending]
  exact if_pos hfree

/-- Discarding the result of a sequence. -/
theorem discard_bind {β : Type} (x : Eng α) (f : α → Eng β) :
    (discard (x >>= f) : Eng Unit) = x >>= fun a ↦ discard (f a) :=
  Traced.andThen_assoc x f _

/-- Discarding a result that was mapped. -/
theorem discard_map {β : Type} (g : α → β) (x : Eng α) :
    (discard (g <$> x) : Eng Unit) = discard x :=
  Traced.andThen_assoc x _ _

/-- What `CallSendDtmf` does where it has read the tables. -/
def sendDigits (callId : UInt32) (digits : String) (s : Engine) : Eng Unit :=
  match (s.calls.lookup callId).bind (·.pjsipCallId), cString digits with
  | some pjId, some digits => discard <| shim (.pdCallSendDtmf pjId digits)
  | _, _ => pure ()

/-- What `CallSendDtmf` does after its log entry. -/
def sendLocked (callId : UInt32) (digits : String) : Eng EngineErrorCode := do
  withLock .calls do sendDigits callId digits (← Traced.get)
  return .ok

/-- A `CallSendDtmf` with both its fields. -/
theorem cmdCallSendDtmf_eq {callId : UInt32} {digits : String} {p : Json}
    (hid : callIdField p = some callId) (hdigits : (p.get "digits").asStr = some digits) :
    cmdCallSendDtmf p =
      logEngine .info s!"Sending DTMF: {digits}" >>= fun _ ↦ sendLocked callId digits := by
  unfold cmdCallSendDtmf
  rw [hid, hdigits]
  rfl

/-- In the state `s'` the thread is about to take the library lock under `CALLS`. -/
def StopsAtLibrary (c : Pair Env Engine Action Lock) (s : Engine) (t : EngineThread)
    (s' : Engine) : Prop :=
  ∃ t', (c.set true s t).Reaches engineLocks (c.set true s' t') ∧
    t'.pending = [.acquire .library, .release .library] ∧ t'.held = [.mutex .calls]

/-- Digits for a call are sent under `CALLS`. -/
theorem stops_sendLocked {callId : UInt32} {digits chars : String} {pjId : Int} (e : Env)
    (hcall : (s.calls.lookup callId).bind (·.pjsipCallId) = some pjId)
    (hchars : cString digits = some chars) (hother : (c.threads false).held = []) :
    StopsAtLibrary c s ⟨e, [], discard (sendLocked callId digits), [], []⟩ s := by
  have hnot : .mutex .calls ∉ (c.threads !true).held := by
    rw [Bool.not_true, hother]
    exact List.not_mem_nil
  have locked (k : Eng Unit) : (c.set true s ⟨e, [.acquire (.mutex .calls)], k, [], []⟩).Reaches
      engineLocks (c.set true s ⟨e, [], k, [], [.mutex .calls]⟩) :=
    reaches_acquire hnot List.not_mem_nil rfl
  obtain ⟨k, hk⟩ : ∃ k, sendDigits callId digits s =
      .emitting (.shim (.pdCallSendDtmf pjId chars)) k := by
    unfold sendDigits
    rw [hcall, hchars]
    exact ⟨_, rfl⟩
  have sent {β : Type} (f : Unit → Eng Unit) (g : Unit → Eng β) (h : β → Eng Unit) :
      (c.set true s ⟨e, [], ((sendDigits callId digits s >>= f) >>= g) >>= h, [],
          [.mutex .calls]⟩).Reaches engineLocks
        (c.set true s ⟨e, [.acquire .library, .release .library], ((k >>= f) >>= g) >>= h, [],
          [.mutex .calls]⟩) := by
    rw [hk]
    exact Pair.reaches_set rfl
  exact ⟨_, (Pair.reaches_set rfl).trans ((locked _).trans ((Pair.reaches_set rfl).trans
    (sent _ _ _))), rfl, rfl⟩

/-- `CallSendDtmf` for a call comes to the library lock under `CALLS`. -/
theorem stops_sendDtmf {op : Op} {callId : UInt32} {digits chars : String} {p : Json} (e : Env)
    (hid : callIdField p = some callId) (hdigits : (p.get "digits").asStr = some digits)
    (hchars : cString digits = some chars) (hs : Engaged op callId s)
    (hother : (c.threads false).held = []) :
    ∃ s', Engaged op callId s' ∧ StopsAtLibrary c s (commandThread e "CallSendDtmf" p) s' := by
  have canLog : CanLog [] := by decide
  let log : Eng Unit := logEngine .info s!"Sending DTMF: {digits}"
  have hrank : InRank dtmfRank [] [] s (log.run e s).trace (log.run e s).state :=
    (tame_logEngine canLog _ _).run e s
  have htame : Tame [] s (log.run e s).trace (log.run e s).state :=
    (tame_logEngine canLog _ _).run e s
  have hsteady : Steady [] s (log.run e s).trace (log.run e s).state :=
    (tame_logEngine canLog _ _).run e s
  have hfree : replay (engineLocks.Free (c.threads false).held) []
      (engineLocks.trace (log.run e s).trace) = some [] := by
    rw [hother]
    refine replay_mono (fun held l hl ↦ ⟨List.not_mem_nil, fun hmem ↦ ?_⟩) hrank
    rcases hl with hre | habove
    · exact hre.2
    · exact absurd (habove l hmem) (lt_irrefl _)
  have hprog : commandThread e "CallSendDtmf" p =
      ⟨e, [], log >>= fun _ ↦ discard (sendLocked callId digits), [], []⟩ := by
    change Thread.mk e [] (discard (Except.ok <$> cmdCallSendDtmf p :
      Eng (Except Halt EngineErrorCode))) [] [] = _
    rw [discard_map, cmdCallSendDtmf_eq hid hdigits, discard_bind]
  have hs' : Engaged op callId (log.run e s).state := hs.congr htame.1.1 hsteady.1
  obtain ⟨pjId, hcall⟩ := hs'.call
  obtain ⟨t', hreaches, ht'⟩ := stops_sendLocked (c := c) e hcall hchars hother
  have logged := Pair.reaches_run (i := true) (t := ⟨e, [], log, [], []⟩)
    (f := fun _ ↦ discard (sendLocked callId digits)) hfree
  rw [hprog]
  exact ⟨_, hs', t', logged.trans hreaches, ht'⟩

/-- The command takes `CALLS`, the callback has the library lock: each waits for the other. -/
theorem reaches_deadlock {op : Op} {callId : UInt32} {digits chars : String} {p : Json}
    (hid : callIdField p = some callId) (hdigits : (p.get "digits").asStr = some digits)
    (hchars : cString digits = some chars) (hcalls : locksCalls op = true)
    (hs : Engaged op callId s) (e e' : Env) :
    ∃ c', (race s e e' "CallSendDtmf" p op).Reaches engineLocks c' ∧ c'.Deadlocked := by
  let c := race s e e' "CallSendDtmf" p op
  obtain ⟨s₁, hs₁, t₁, hcommand, hpending₁, hheld₁⟩ :=
    stops_sendDtmf (c := c) e hid hdigits hchars hs rfl
  let c₁ := c.set true s₁ t₁
  have hthread : c₁.threads true = t₁ := Pair.set_self _ _ _ _
  have hlocks : (c₁.threads true).held = [.mutex .calls] := by rw [hthread, hheld₁]
  have enters : (c₁.set false s₁ (callbackThread e' op)).Reaches engineLocks
      (c₁.set false s₁ ⟨e', [], op.run, [.release .library], [.library]⟩) :=
    reaches_acquire (by rw [Bool.not_false, hlocks]; decide) List.not_mem_nil rfl
  obtain ⟨s₂, t₂, hcallback, hpending₂, hheld₂⟩ := stops_callback (c := c₁)
    (t := ⟨e', [], op.run, [.release .library], [.library]⟩) hcalls hs₁ hlocks rfl
  have hstart : c.set true s (commandThread e "CallSendDtmf" p) = c := Pair.set_eq_self c true
  have hmiddle : c₁.set false s₁ (callbackThread e' op) = c₁ := Pair.set_eq_self c₁ false
  rw [hstart] at hcommand
  rw [hmiddle] at enters
  refine ⟨c₁.set false s₂ t₂, hcommand.trans (enters.trans hcallback), fun i ↦ ?_⟩
  have hcommand' : (c₁.set false s₂ t₂).threads true = t₁ := by
    rw [Pair.set_of_ne _ (by decide), hthread]
  have hcallback' : (c₁.set false s₂ t₂).threads false = t₂ := Pair.set_self _ _ _ _
  cases i with
  | true =>
    refine ⟨.library, ?_, ?_⟩
    · rw [hcommand', Thread.waitsFor, hpending₁]
      rfl
    · rw [Bool.not_true, hcallback', hheld₂]
      exact List.mem_singleton_self _
  | false =>
    refine ⟨.mutex .calls, ?_, ?_⟩
    · rw [hcallback', Thread.waitsFor, hpending₂]
      rfl
    · rw [Bool.not_false, hcommand', hheld₁]
      exact List.mem_singleton_self _

end Standstill

section Races

variable {cmd : String} {p : Json} {op : Op}

/-- The fields of a command that calls PJSIP under `CALLS`. -/
theorem sendsDtmf_eq (h : sendsDtmf cmd p = true) : cmd = "CallSendDtmf" ∧
    ∃ callId digits chars, callIdField p = some callId ∧ (p.get "digits").asStr = some digits ∧
      cString digits = some chars := by
  simp only [sendsDtmf, Bool.and_eq_true, decide_eq_true_eq, Option.isSome_iff_exists] at h
  obtain ⟨⟨hcmd, callId, hid⟩, chars, hchars⟩ := h
  obtain ⟨digits, hdigits, hchars⟩ := Option.bind_eq_some_iff.mp hchars
  exact ⟨hcmd, callId, digits, chars, hid, hdigits, hchars⟩

/-- A command and a callback never wait for locks of each other, in whatever state and order they
run, if and only if the command does not call PJSIP under `CALLS` or the callback leaves `CALLS`
alone. -/
theorem never_deadlocked_iff (hop : isCallback op = true) :
    (∀ s e e' (is : List Bool) c,
      is.foldlM (Pair.step engineLocks) (race s e e' cmd p op) = some c → ¬ c.Deadlocked) ↔
      ¬ (sendsDtmf cmd p = true ∧ locksCalls op = true) := by
  constructor
  · rintro never ⟨hdtmf, hcalls⟩
    obtain ⟨rfl, callId, digits, chars, hid, hdigits, hchars⟩ := sendsDtmf_eq hdtmf
    obtain ⟨c, ⟨is, hrun⟩, hdead⟩ := reaches_deadlock hid hdigits hchars hcalls
      (engaged_engaged op callId) quietEnv quietEnv
    exact never _ _ _ is c hrun hdead
  · intro hnot s e e' is c hrun
    obtain ⟨ρ, horderly⟩ := exists_race_orderly hop hnot s e e'
    exact horderly.never_deadlocked hrun

/-- A `CallHangup` and a call state, as an instance. -/
theorem never_deadlocked_iff_hangup :
    ∃ c, [true, false, false, true].foldlM (Pair.step engineLocks)
        (race Engine.initial quietEnv quietEnv "CallHangup" .null (.onCallState 0 6)) = some c ∧
      ¬ c.Deadlocked := by
  have hnot : ¬ (sendsDtmf "CallHangup" .null = true ∧ locksCalls (.onCallState 0 6) = true) := by
    decide
  have hruns : ([true, false, false, true].foldlM (Pair.step engineLocks)
      (race Engine.initial quietEnv quietEnv "CallHangup" .null (.onCallState 0 6))).isSome =
        true := rfl
  obtain ⟨c, hrun⟩ := Option.isSome_iff_exists.mp hruns
  exact ⟨c, hrun, (never_deadlocked_iff rfl).mpr hnot _ _ _ _ c hrun⟩

/-- A digit for the first call. -/
def dtmfPayload : Json := .obj [("call_id", .num (.posInt 1)), ("digits", .str "5")]

/-- A `CallSendDtmf` for the call of `dial` and the end of that call wait for each other. -/
theorem send_dtmf_deadlock :
    ∃ s c, ∃ is : List Bool, (signIn ++ [dial]).foldlM engineStep Engine.initial = some s ∧
      is.foldlM (Pair.step engineLocks) (race s quietEnv quietEnv "CallSendDtmf"
        dtmfPayload (.onCallState 0 6)) = some c ∧
      c.Deadlocked := by
  have h : ((signIn ++ [dial]).foldlM engineStep Engine.initial).map (fun s ↦
      ((s.calls.lookup 1).bind (·.pjsipCallId), s.pjsipCallMap.lookup 0)) =
        some (some 0, some 1) := by decide
  obtain ⟨s, hs, hlookups⟩ := Option.map_eq_some_iff.mp h
  obtain ⟨hcall, hroute⟩ := Prod.mk.inj hlookups
  have hengaged : Engaged (.onCallState 0 6) 1 s := ⟨⟨0, hcall⟩, 1, hroute⟩
  have hid : callIdField dtmfPayload = some 1 := rfl
  have hdigits : (dtmfPayload.get "digits").asStr = some "5" := rfl
  have hchars : cString "5" = some "5" := by decide
  obtain ⟨c, ⟨is, hrun⟩, hdead⟩ :=
    reaches_deadlock hid hdigits hchars rfl hengaged quietEnv quietEnv
  exact ⟨s, c, is, hs, hrun, hdead⟩

end Races

end PacketDial.System
