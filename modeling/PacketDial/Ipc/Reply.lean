import PacketDial.Ipc.Framing

/-!
# The reply to a command of `pd`

`pd` sends one command and takes the first line that it reads for the reply
(`tools/pd/src/main.rs:86–108`). The thread of the client in the engine writes the events that have
come through its channel to the same stream, before it reads a command
(`core_rust/src/lib.rs:3411–3418`). A line of JSON is modelled as its value.
-/

namespace PacketDial.Ipc

open PacketDial.Core PacketDial.Lib PacketDial.System

/-- Where the thread of the client is: before `CLIENT_SENDERS` has its channel, at `try_recv`, at
`read_line`, or at its end. -/
inductive ServerPoint where
  | accepted
  | receiving
  | reading
  | ended
  deriving DecidableEq

/-- The command of `pd`: not sent, in the pipe, or read by the server. -/
inductive CommandPoint where
  | unsent
  | sent (line : Json)
  | read

/-- One connection of `pd`: the thread of the client and its channel, the command, the lines that
were written to `pd`, and what `dispatch_command` has returned. -/
structure Connection where
  point : ServerPoint
  channel : List Json
  command : CommandPoint
  output : List Json
  returned : Option Int

/-- `pd` has connected. -/
def Connection.initial : Connection where
  point := .accepted
  channel := []
  command := .unsent
  output := []
  returned := none

/-- The line of an event (`lib.rs:1029–1035`). -/
def eventLine (type : String) (payload : Json) : Json :=
  .obj [("type", .str type), ("payload", payload)]

/-- The line of a response (`lib.rs:3427–3430`). -/
def responseLine (rc : Int) : Json :=
  .obj [("type", .str "CommandResponse"), ("payload", .obj [("rc", .ofI32 rc)])]

/-- The line of a command (`main.rs:87`). -/
def commandLine (cmdType : String) (payload : Json) : Json :=
  .obj [("type", .str cmdType), ("payload", payload)]

/-- The lines of the events that a run sends to a client. -/
def linesTo (client : Nat) (trace : List Action) : List Json :=
  trace.filterMap fun
    | .ipcSend client' type payload =>
      if client' = client then some (eventLine type payload) else none
    | _ => none

/-- A step of one of the threads: another thread of the engine broadcasts an event, `pd` sends its
command, or the thread of the client goes on. A command finds the engine in the state `s`. -/
inductive ConnectionMove where
  | broadcast (type : String) (payload : Json)
  | send (cmdType : String) (payload : Json)
  | serve (env : Env) (s : Engine)

/-- The next step of the thread of the client (`lib.rs:3398–3446`). -/
def Connection.serve (client : Nat) (t : Connection) (env : Env) (s : Engine) :
    Option Connection :=
  match t.point with
  | .accepted => some { t with point := .receiving }
  | .receiving => match t.channel with
    | line :: channel => some { t with channel := channel, output := t.output ++ [line] }
    | [] => some { t with point := .reading }
  | .reading => match t.command with
    | .sent line =>
      let command := commandIn line
      let out := (dispatchCommand command.1 command.2).run env s
      let t := { t with command := .read, channel := t.channel ++ linesTo client out.trace }
      match out.value with
      | .ok rc => some { t with
          point := .receiving
          output := t.output ++ [responseLine rc.code]
          returned := some rc.code }
      | .error _ => some { t with point := .ended }
    | _ => some { t with point := .receiving }
  | .ended => none

/-- One step. A broadcast before the client is registered does not reach it. -/
def connectionStep (client : Nat) (t : Connection) : ConnectionMove → Option Connection
  | .broadcast type payload => some { t with
      channel := if t.point = .accepted then t.channel
        else t.channel ++ [eventLine type payload] }
  | .send cmdType payload => match t.command with
    | .unsent => some { t with command := .sent (commandLine cmdType payload) }
    | _ => none
  | .serve env s => t.serve client env s

/-- The code that `send_command` reads from a line (`main.rs:99`). -/
def reportedRc (line : Json) : Int := ((line.get "payload").get "rc").asI64.getD (-1)

/-- What `send_command` reports once there is a line for it to read. -/
def Connection.report (t : Connection) : Option Int := t.output.head?.map reportedRc

/-- The thread finds the channel empty whenever it looks before it has read the command. -/
def FindsNothing (t : Connection) : ConnectionMove → Prop
  | .serve .. => t.point = .receiving → t.command ≠ .read → t.channel = []
  | _ => True

/-- The reply is paired: what `send_command` reports is what `dispatch_command` returned. -/
def Paired (t : Connection) : Prop := ∀ rc ∈ t.report, t.returned = some rc

/-- The thread has returned from the command just if it has answered it, and before that it has read
it only if it has panicked. -/
structure Attended (t : Connection) : Prop where
  answered : t.returned ≠ none → t.command = .read ∧ t.output ≠ []
  unanswered : t.returned = none → t.command = .read → t.point = .ended

section Steps

variable {client : Nat} {t u : Connection} {m : ConnectionMove} {env : Env} {s : Engine}
  {line : Json} {channel : List Json}

/-- The code in a response is the one that was returned. -/
theorem reportedRc_responseLine (rc : EngineErrorCode) :
    reportedRc (responseLine rc.code) = rc.code := by
  cases rc <;> rfl

/-- Nothing is paired before anything is written. -/
theorem paired_of_nil (h : t.output = []) : Paired t := by
  unfold Paired Connection.report
  rw [h]
  exact fun _ hrc ↦ nomatch hrc

/-- Before the command was answered the reply is paired just if nothing is written. -/
theorem paired_iff_of_none (h : t.returned = none) : Paired t ↔ t.output = [] := by
  constructor
  · intro hpaired
    by_contra hne
    obtain ⟨line, rest, houtput⟩ := List.exists_cons_of_ne_nil hne
    have hreport : t.report = some (reportedRc line) := by
      unfold Connection.report
      rw [houtput]
      rfl
    exact Option.some_ne_none _ ((hpaired _ hreport).symm.trans h)
  · exact paired_of_nil

/-- The first line that `pd` reads stays the first. -/
theorem report_append (h : t.output ≠ []) {lines : List Json} (hu : u.output = t.output ++ lines) :
    u.report = t.report := by
  unfold Connection.report
  rw [hu, List.head?_append_of_ne_nil _ h]

/-- Writing an event keeps the reply paired just if the command was read before. -/
theorem paired_event_iff (h : Attended t) (hp : Paired t) (hpoint : t.point = .receiving)
    (houtput : u.output = t.output ++ [line]) (hreturned : u.returned = t.returned) :
    Paired u ↔ t.command = .read := by
  cases hrc : t.returned with
  | none =>
    refine iff_of_false (fun hpaired ↦ ?_) fun hread ↦ ?_
    · have hnil := (paired_iff_of_none (hreturned.trans hrc)).mp hpaired
      rw [houtput] at hnil
      exact List.append_ne_nil_of_right_ne_nil _ (List.cons_ne_nil _ _) hnil
    · have hended := h.unanswered hrc hread
      rw [hpoint] at hended
      cases hended
  | some rc =>
    obtain ⟨hread, hne⟩ := h.answered (by rw [hrc]; exact Option.some_ne_none rc)
    refine iff_of_true (fun rc' hrc' ↦ ?_) hread
    rw [report_append hne houtput] at hrc'
    exact hreturned.trans (hp rc' hrc')

/-- A step of the thread of the client. -/
theorem serve_iff (h : Attended t) (hs : t.serve client env s = some u) :
    Attended u ∧ (Paired t → (Paired u ↔ FindsNothing t (.serve env s))) := by
  unfold FindsNothing
  unfold Connection.serve at hs
  have hunread (hpoint : t.point ≠ .ended) (hnone : t.returned = none) : t.command ≠ .read :=
    fun hread ↦ hpoint (h.unanswered hnone hread)
  cases hpoint : t.point with
  | accepted =>
    rw [hpoint] at hs
    cases hs
    refine ⟨⟨h.answered, fun hnone hread ↦ ?_⟩, fun hp ↦ iff_of_true hp fun hne ↦ by cases hne⟩
    exact absurd hread (hunread (by rw [hpoint]; decide) hnone)
  | receiving =>
    rw [hpoint] at hs
    have hnot := hunread (by rw [hpoint]; decide)
    dsimp only at hs
    split at hs
    · next line channel hchannel =>
      cases hs
      constructor
      · refine ⟨fun hne ↦ ⟨(h.answered hne).1, ?_⟩, fun hnone hread ↦ absurd hread (hnot hnone)⟩
        exact List.append_ne_nil_of_right_ne_nil _ (List.cons_ne_nil _ _)
      · intro hp
        have hwritten : Paired { t with channel := channel, output := t.output ++ [line] } ↔
            t.command = .read := paired_event_iff h hp hpoint rfl rfl
        refine hwritten.trans ?_
        rw [hchannel]
        exact ⟨fun hread _ hne ↦ absurd hread hne, fun hnil ↦ by_contra fun hne ↦ by
          cases hnil rfl hne⟩
    · next hchannel =>
      cases hs
      refine ⟨⟨h.answered, fun hnone hread ↦ absurd hread (hnot hnone)⟩, fun hp ↦ ?_⟩
      exact iff_of_true hp fun _ _ ↦ hchannel
  | reading =>
    rw [hpoint] at hs
    have hnot := hunread (by rw [hpoint]; decide)
    have htrivial : ServerPoint.reading = .receiving → t.command ≠ .read → t.channel = [] :=
      fun hne ↦ by cases hne
    dsimp only at hs
    split at hs
    · next line hcommand =>
      have hnone : t.returned = none := by
        by_contra hne
        have hread := (h.answered hne).1
        rw [hcommand] at hread
        cases hread
      split at hs
      · next rc hrc =>
        cases hs
        constructor
        · refine ⟨fun _ ↦ ⟨rfl, ?_⟩, fun hne ↦ by cases hne⟩
          exact List.append_ne_nil_of_right_ne_nil _ (List.cons_ne_nil _ _)
        · refine fun hp ↦ iff_of_true (fun rc' hrc' ↦ ?_) htrivial
          unfold Connection.report at hrc'
          dsimp only at hrc'
          rw [(paired_iff_of_none hnone).mp hp] at hrc'
          cases hrc'
          exact congrArg some (reportedRc_responseLine rc).symm
      · cases hs
        refine ⟨⟨fun hne ↦ absurd hnone hne, fun _ _ ↦ rfl⟩, fun hp ↦ iff_of_true ?_ htrivial⟩
        exact paired_of_nil ((paired_iff_of_none hnone).mp hp)
    · cases hs
      refine ⟨⟨h.answered, fun hnone hread ↦ absurd hread (hnot hnone)⟩, fun hp ↦ ?_⟩
      exact iff_of_true hp htrivial
  | ended =>
    rw [hpoint] at hs
    cases hs

/-- One step. -/
theorem connectionStep_iff (h : Attended t) (hs : connectionStep client t m = some u) :
    Attended u ∧ (Paired t → (Paired u ↔ FindsNothing t m)) := by
  cases m with
  | broadcast type payload =>
    cases hs
    exact ⟨⟨h.answered, h.unanswered⟩, fun hp ↦ iff_of_true hp trivial⟩
  | send cmdType payload =>
    unfold connectionStep at hs
    dsimp only at hs
    split at hs
    · next hcommand =>
      cases hs
      refine ⟨⟨fun hne ↦ ?_, fun _ hread ↦ by cases hread⟩, fun hp ↦ iff_of_true hp trivial⟩
      have hread := (h.answered hne).1
      rw [hcommand] at hread
      cases hread
    · cases hs
  | serve env s => exact serve_iff h hs

end Steps

section Runs

variable {client : Nat} {moves : List ConnectionMove} {t : Connection}

/-- Nothing was sent, read or written at the start. -/
theorem attended_initial : Attended Connection.initial :=
  ⟨fun hne ↦ absurd rfl hne, fun _ hread ↦ by cases hread⟩

/-- For every interleaving of broadcasts with the command of `pd` and the thread of its client:
what `send_command` reports is what `dispatch_command` returned, whenever it reads the reply, if and
only if the thread finds its channel empty whenever it looks before it has read the command. -/
theorem reply_paired_iff (run : moves.foldlM (connectionStep client) Connection.initial = some t) :
    (∀ first u, first <+: moves → first.foldlM (connectionStep client) Connection.initial = some u →
      Paired u) ↔ Path (connectionStep client) FindsNothing Connection.initial moves t := by
  have hpath := Path.iff_always_kept attended_initial (paired_of_nil rfl)
    (fun _ _ _ h hs ↦ (connectionStep_iff h hs).1)
    (fun _ _ _ h hpaired hs ↦ (connectionStep_iff h hs).2 hpaired) run
  exact hpath.symm

end Runs

/-- `pd` asks whether the engine is alive. -/
def asksPing : ConnectionMove := .send "EnginePing" (.obj [])

/-- The thread of the client goes on. -/
def serves : ConnectionMove := .serve quietEnv Engine.initial

/-- A log entry is broadcast. -/
def logs : ConnectionMove := .broadcast "EngineLog" (.obj [("message", .str "x")])

/-- An event that comes when the command has been read, as an instance. -/
theorem reply_paired_iff_late :
    ∃ t, [asksPing, serves, serves, serves, logs].foldlM (connectionStep 0) Connection.initial =
        some t ∧
      ((∀ first u, first <+: [asksPing, serves, serves, serves, logs] →
        first.foldlM (connectionStep 0) Connection.initial = some u → Paired u) ↔
      Path (connectionStep 0) FindsNothing Connection.initial
        [asksPing, serves, serves, serves, logs] t) := by
  have h : ([asksPing, serves, serves, serves, logs].foldlM (connectionStep 0)
      Connection.initial).isSome = true := by decide
  obtain ⟨t, ht⟩ := Option.isSome_iff_exists.mp h
  exact ⟨t, ht, reply_paired_iff ht⟩

/-- An event that comes when the client is registered is taken for the reply: the command returns 0,
and `pd` reports −1. -/
theorem event_taken_for_reply :
    ∃ t, [serves, logs, asksPing, serves, serves, serves].foldlM (connectionStep 0)
        Connection.initial = some t ∧ t.returned = some 0 ∧ t.report = some (-1) := by
  have h : ([serves, logs, asksPing, serves, serves, serves].foldlM (connectionStep 0)
      Connection.initial).map (fun t ↦ (t.returned, t.report)) = some (some 0, some (-1)) := by
    decide
  obtain ⟨t, ht, hrc⟩ := Option.map_eq_some_iff.mp h
  obtain ⟨hreturned, hreport⟩ := Prod.mk.inj hrc
  exact ⟨t, ht, hreturned, hreport⟩

end PacketDial.Ipc
