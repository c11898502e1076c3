import PacketDial.Core.Dispatch
import PacketDial.Lib.Paths
import PacketDial.Lib.Utf8
import PacketDial.System.Machine

/-!
# The lines of a client

`handle_api_client` (`core_rust/src/lib.rs:3398–3446`) reads commands with `BufRead::read_line` from
a stream that does not block. A call of `read_line` that ends in an error keeps what it has appended
to the line if that is UTF-8, and drops it otherwise.
-/

namespace PacketDial.Ipc

open PacketDial.Core PacketDial.Lib PacketDial.System

/-- The byte `\n`. -/
def newline : UInt8 := 0x0A

/-- What `read_line` gets from the stream. How many bytes a read of the stream gives makes no
difference to it, only where a read would block. -/
inductive Arrival where
  | byte (b : UInt8)
  | wouldBlock
  | closed

/-- What surrounds the thread of a client: `serde_json::from_str`, and for each command, counted
from 0, what its run gets from outside and what other threads did to the engine before it. -/
structure Surroundings where
  parseJson : String → Option Json
  env : Nat → Env
  others : Nat → Engine → Engine

/-- The thread of a client. `line` is the variable of the loop and `appended` what the running call
of `read_line` has appended to it; `commands` are those that were dispatched, `responses` the codes
that were written, each with the line it answers, and `received` all bytes that came. -/
structure ClientThread where
  line : List UInt8
  appended : List UInt8
  running : Bool
  engine : Engine
  commands : List (String × Json)
  responses : List (List UInt8 × Int)
  received : List UInt8

/-- The command in a JSON value: its type and its payload. -/
def commandIn (v : Json) : String × Json := ((v.get "type").asStr.getD "", v.get "payload")

/-- The JSON value in a line, if it is one. -/
def Surroundings.valueOf (w : Surroundings) (line : List UInt8) : Option Json :=
  (decodeUtf8 line).bind w.parseJson

/-- The run of the command that comes next. -/
def Surroundings.dispatch (w : Surroundings) (t : ClientThread) (command : String × Json) :
    Outcome Engine Action (Except Halt EngineErrorCode) :=
  (dispatchCommand command.1 command.2).run (w.env t.commands.length)
    (w.others t.commands.length t.engine)

namespace ClientThread

/-- A client that has just connected. -/
def fresh (s : Engine) : ClientThread where
  line := []
  appended := []
  running := true
  engine := s
  commands := []
  responses := []
  received := []

/-- The command of a line (`lib.rs:3421–3433`). A panic ends the thread. -/
def perform (w : Surroundings) (t : ClientThread) (line : List UInt8) (command : String × Json) :
    ClientThread :=
  let out := w.dispatch t command
  let t := { t with engine := out.state, commands := t.commands ++ [command] }
  match out.value with
  | .ok rc => { t with responses := t.responses ++ [(line, rc.code)] }
  | .error _ => { t with running := false }

/-- What the loop does with a line (`lib.rs:3420–3436`). -/
def handleLine (w : Surroundings) (t : ClientThread) (line : List UInt8) : ClientThread :=
  let t := match w.valueOf line with
    | some v => t.perform w line (commandIn v)
    | none => t
  { t with line := [], appended := [] }

/-- A byte arrives. A call of `read_line` ends with a newline; if what it appended is not UTF-8, it
is an error that ends the loop. -/
def onByte (w : Surroundings) (t : ClientThread) (b : UInt8) : ClientThread :=
  let appended := t.appended ++ [b]
  let t := { t with received := t.received ++ [b] }
  if b = newline then
    if IsUtf8 appended then t.handleLine w (t.line ++ appended) else { t with running := false }
  else { t with appended := appended }

/-- A read would block. -/
def onWouldBlock (t : ClientThread) : ClientThread :=
  if IsUtf8 t.appended then { t with line := t.line ++ t.appended, appended := [] }
  else { t with appended := [] }

/-- The stream ends. The loop breaks at a call of `read_line` that appended nothing. -/
def onClosed (w : Surroundings) (t : ClientThread) : ClientThread :=
  if t.appended ≠ [] ∧ IsUtf8 t.appended then
    { t.handleLine w (t.line ++ t.appended) with running := false }
  else { t with running := false }

/-- One step of the thread. -/
def step (w : Surroundings) (t : ClientThread) (a : Arrival) : ClientThread :=
  if t.running then
    match a with
    | .byte b => t.onByte w b
    | .wouldBlock => t.onWouldBlock
    | .closed => t.onClosed w
  else t

end ClientThread

/-- The lines of a stream that end in a newline, and what comes after the last of them. -/
def splitLines (bytes : List UInt8) : List (List UInt8) × List UInt8 :=
  bytes.foldl (fun (lines, rest) b ↦
    if b = newline then (lines ++ [rest ++ [b]], []) else (lines, rest ++ [b])) ([], [])

/-- The stream has something to read. -/
def Arrival.isReady : Arrival → Bool
  | .wouldBlock => false
  | _ => true

/-- The thread after the same stream in one piece. -/
def unsplit (w : Surroundings) (s : Engine) (arrivals : List Arrival) : ClientThread :=
  (arrivals.filter Arrival.isReady).foldl (ClientThread.step w) (.fresh s)

/-- The client sends UTF-8. -/
def SendsUtf8 (t : ClientThread) : Arrival → Prop
  | .byte b => ∃ more, IsUtf8 (t.received ++ b :: more)
  | .wouldBlock => True
  | .closed => IsUtf8 t.received

/-- A line is JSON and the dispatch of its command returns. -/
def Answerable (w : Surroundings) (t : ClientThread) (line : List UInt8) : Prop :=
  ∃ v, w.valueOf line = some v ∧ ∃ rc, (w.dispatch t (commandIn v)).value = .ok rc

/-- What keeps the framing: a line that ends is answerable, a read that would block comes between
two characters, and none comes between a JSON value without a newline and the end. -/
def KeepsFraming (w : Surroundings) (t : ClientThread) : Arrival → Prop
  | .byte b => b = newline → Answerable w t ((splitLines t.received).2 ++ [b])
  | .wouldBlock => IsUtf8 t.received
  | .closed => t.appended = [] → (splitLines t.received).2 = [] ∨
      w.valueOf (splitLines t.received).2 = none

section Lines

variable {bytes : List UInt8} {b : UInt8}

/-- One more byte. -/
theorem splitLines_concat (bytes : List UInt8) (b : UInt8) : splitLines (bytes ++ [b]) =
    if b = newline then ((splitLines bytes).1 ++ [(splitLines bytes).2 ++ [b]], [])
    else ((splitLines bytes).1, (splitLines bytes).2 ++ [b]) := by
  unfold splitLines
  rw [List.foldl_append]
  rfl

/-- The lines and the rest are the stream. -/
theorem flatten_splitLines (bytes : List UInt8) :
    (splitLines bytes).1.flatten ++ (splitLines bytes).2 = bytes := by
  induction bytes using List.reverseRecOn with
  | nil => rfl
  | append_singleton bytes b ih =>
    rw [splitLines_concat]
    by_cases hb : b = newline
    · rw [if_pos hb, List.flatten_append, List.flatten_singleton, List.append_nil,
        ← List.append_assoc, ih]
    · rw [if_neg hb, ← List.append_assoc, ih]

end Lines

namespace ClientThread

/-- The thread between two lines. -/
def settled (t : ClientThread) : ClientThread := { t with line := [], appended := [] }

section Steps

variable {w : Surroundings} {t u : ClientThread} {line : List UInt8} {v : Json}

/-- A command that returns is answered. -/
theorem perform_of_ok {command : String × Json} {rc : EngineErrorCode} (line : List UInt8)
    (h : (w.dispatch t command).value = .ok rc) : t.perform w line command =
      { t with
        engine := (w.dispatch t command).state
        commands := t.commands ++ [command]
        responses := t.responses ++ [(line, rc.code)] } := by
  unfold perform
  dsimp only
  rw [h]

/-- A panic ends the thread. -/
theorem perform_of_error {command : String × Json} {halt : Halt} (line : List UInt8)
    (h : (w.dispatch t command).value = .error halt) : t.perform w line command =
      { t with
        engine := (w.dispatch t command).state
        commands := t.commands ++ [command]
        running := false } := by
  unfold perform
  dsimp only
  rw [h]

/-- A line with a command. -/
theorem handleLine_of_some (h : w.valueOf line = some v) :
    t.handleLine w line = (t.perform w line (commandIn v)).settled := by
  unfold handleLine
  rw [h]
  rfl

/-- A line that is no JSON is passed over. -/
theorem handleLine_of_none (h : w.valueOf line = none) : t.handleLine w line = t.settled := by
  unfold handleLine
  rw [h]
  rfl

/-- What is done with a line does not depend on what was read before. -/
theorem handleLine_settled (w : Surroundings) (t : ClientThread) (line : List UInt8) :
    t.settled.handleLine w line = t.handleLine w line := by
  cases hv : w.valueOf line with
  | none => rw [handleLine_of_none hv, handleLine_of_none hv, settled, settled]
  | some v =>
    have hdispatch : w.dispatch t.settled (commandIn v) = w.dispatch t (commandIn v) := rfl
    rw [handleLine_of_some hv, handleLine_of_some hv]
    cases hrc : (w.dispatch t (commandIn v)).value with
    | ok rc =>
      rw [perform_of_ok line hrc, perform_of_ok line (hdispatch ▸ hrc), hdispatch]
      rfl
    | error halt =>
      rw [perform_of_error line hrc, perform_of_error line (hdispatch ▸ hrc), hdispatch]
      rfl

/-- A line is no part of what was received. -/
theorem received_handleLine (w : Surroundings) (t : ClientThread) (line : List UInt8) :
    (t.handleLine w line).received = t.received := by
  cases hv : w.valueOf line with
  | none =>
    rw [handleLine_of_none hv]
    rfl
  | some v =>
    rw [handleLine_of_some hv]
    cases hrc : (w.dispatch t (commandIn v)).value with
    | ok rc =>
      rw [perform_of_ok line hrc]
      rfl
    | error halt =>
      rw [perform_of_error line hrc]
      rfl

/-- An answerable line is answered. -/
theorem handleLine_of_answerable (h : Answerable w t line) :
    (t.handleLine w line).running = t.running ∧
      (t.handleLine w line).responses.map Prod.fst = t.responses.map Prod.fst ++ [line] := by
  obtain ⟨v, hv, rc, hrc⟩ := h
  rw [handleLine_of_some hv, perform_of_ok line hrc]
  refine ⟨rfl, ?_⟩
  change (t.responses ++ [(line, rc.code)]).map Prod.fst = _
  rw [List.map_append, List.map_singleton]

/-- A line is answered at most once. -/
theorem responses_handleLine (w : Surroundings) (t : ClientThread) (line : List UInt8) :
    (t.handleLine w line).responses.map Prod.fst = t.responses.map Prod.fst ∨
      (t.handleLine w line).responses.map Prod.fst = t.responses.map Prod.fst ++ [line] := by
  cases hv : w.valueOf line with
  | none =>
    rw [handleLine_of_none hv]
    exact Or.inl rfl
  | some v =>
    cases hrc : (w.dispatch t (commandIn v)).value with
    | ok rc => exact Or.inr (handleLine_of_answerable ⟨v, hv, rc, hrc⟩).2
    | error halt =>
      rw [handleLine_of_some hv, perform_of_error line hrc]
      exact Or.inl rfl

end Steps

end ClientThread

/-- Every line that ended is answered, once and in order; when the connection has ended, so may be
what came after the last of them. -/
def Answered (t : ClientThread) : Prop :=
  t.responses.map Prod.fst = (splitLines t.received).1 ∨ t.running = false ∧
    t.responses.map Prod.fst = (splitLines t.received).1 ++ [(splitLines t.received).2]

/-- The thread has kept the line that is not complete, and answered the lines before. -/
structure Framed (t : ClientThread) : Prop where
  rest : (splitLines t.received).2 = t.line ++ t.appended
  lines : IsUtf8 (splitLines t.received).1.flatten
  line : IsUtf8 t.line
  answered : t.responses.map Prod.fst = (splitLines t.received).1

section Steps

variable {w : Surroundings} {t u : ClientThread} {a : Arrival} {b : UInt8}

/-- The thread that has the same stream in one piece. -/
def ClientThread.joined (t : ClientThread) : ClientThread :=
  { t with line := [], appended := t.line ++ t.appended }

/-- The part of a line that has come so far is UTF-8 if the stream is. -/
theorem Framed.rest_utf8 (h : Framed t) (hutf8 : IsUtf8 t.received) :
    IsUtf8 (t.line ++ t.appended) := by
  rw [← flatten_splitLines t.received] at hutf8
  rw [← h.rest]
  exact hutf8.of_append h.lines

/-- So is what the running call of `read_line` has appended. -/
theorem Framed.appended_utf8 (h : Framed t) (hutf8 : IsUtf8 t.received) : IsUtf8 t.appended :=
  (h.rest_utf8 hutf8).of_append h.line

/-- A read that would block between two characters. -/
theorem Framed.wouldBlock (h : Framed t) (hutf8 : IsUtf8 t.received) :
    Framed t.onWouldBlock ∧ t.onWouldBlock.joined = t.joined := by
  unfold ClientThread.onWouldBlock
  rw [if_pos (h.appended_utf8 hutf8)]
  refine ⟨⟨?_, h.lines, ?_, h.answered⟩, ?_⟩
  · exact h.rest.trans (List.append_nil _).symm
  · exact h.line.append (h.appended_utf8 hutf8)
  · unfold ClientThread.joined
    dsimp only
    rw [List.append_nil]

/-- A byte within a line. -/
theorem Framed.byte (h : Framed t) (hb : b ≠ newline) :
    Framed (t.onByte w b) ∧ t.joined.onByte w b = (t.onByte w b).joined := by
  unfold ClientThread.onByte
  dsimp only
  rw [if_neg hb, if_neg hb]
  have hsplit := splitLines_concat t.received b
  rw [if_neg hb] at hsplit
  refine ⟨⟨?_, ?_, h.line, ?_⟩, ?_⟩
  · rw [hsplit, h.rest, List.append_assoc]
  · rw [hsplit]
    exact h.lines
  · rw [hsplit]
    exact h.answered
  · unfold ClientThread.joined
    dsimp only
    rw [List.append_assoc]

/-- A newline is one byte that begins a character. -/
theorem newline_first : newline.IsUTF8FirstByte := by decide

/-- The run of a newline after whole characters. -/
theorem onByte_newline (hline : IsUtf8 (t.appended ++ [newline])) : t.onByte w newline =
    { t with received := t.received ++ [newline] }.handleLine w
      (t.line ++ (t.appended ++ [newline])) := by
  unfold ClientThread.onByte
  dsimp only
  rw [if_pos rfl, if_pos hline]

/-- The end of a line that is answerable. -/
theorem Framed.lineEnd (h : Framed t) {more : List UInt8}
    (hutf8 : IsUtf8 (t.received ++ newline :: more))
    (hanswer : Answerable w t ((splitLines t.received).2 ++ [newline])) :
    Framed (t.onByte w newline) ∧ t.joined.onByte w newline = (t.onByte w newline).joined := by
  have hreceived : IsUtf8 t.received := hutf8.of_append_first newline_first
  have hnewline : IsUtf8 [newline] := by decide
  have hline : IsUtf8 (t.appended ++ [newline]) := (h.appended_utf8 hreceived).append hnewline
  have hjoined : IsUtf8 (t.joined.appended ++ [newline]) :=
    (h.rest_utf8 hreceived).append hnewline
  let t₁ : ClientThread := { t with received := t.received ++ [newline] }
  have hsame : t.line ++ (t.appended ++ [newline]) = (splitLines t.received).2 ++ [newline] := by
    rw [h.rest, List.append_assoc]
  rw [onByte_newline hline, onByte_newline hjoined, hsame]
  have hdone : Answerable w t₁ ((splitLines t.received).2 ++ [newline]) := hanswer
  have hresponses := (ClientThread.handleLine_of_answerable hdone).2
  have hsplit := splitLines_concat t.received newline
  rw [if_pos rfl] at hsplit
  refine ⟨⟨?_, ?_, .nil, ?_⟩, ?_⟩
  · rw [ClientThread.received_handleLine, hsplit]
    rfl
  · rw [ClientThread.received_handleLine, hsplit, List.flatten_append, List.flatten_singleton]
    refine h.lines.append (IsUtf8.append ?_ hnewline)
    rw [h.rest]
    exact h.rest_utf8 hreceived
  · rw [ClientThread.received_handleLine, hsplit]
    exact hresponses.trans (congrArg (· ++ _) h.answered)
  · change { t.joined with received := t.received ++ [newline] }.handleLine w
      ([] ++ (t.line ++ t.appended ++ [newline])) = (t₁.handleLine w _)
    rw [List.nil_append, ← h.rest, ← ClientThread.handleLine_settled,
      ← ClientThread.handleLine_settled w t₁]
    rfl

/-- The end of a stream after whole characters. -/
theorem onClosed_of_utf8 (hne : t.appended ≠ []) (hutf8 : IsUtf8 t.appended) : t.onClosed w =
    { t.handleLine w (t.line ++ t.appended) with running := false } :=
  if_pos ⟨hne, hutf8⟩

/-- The end of a stream when the running call of `read_line` has appended nothing. -/
theorem onClosed_of_nil (h : t.appended = []) : t.onClosed w = { t with running := false } :=
  if_neg fun hne ↦ hne.1 h

/-- The end of the stream. -/
theorem Framed.closed (h : Framed t) (hutf8 : IsUtf8 t.received)
    (hrest : t.appended = [] → (splitLines t.received).2 = [] ∨
      w.valueOf (splitLines t.received).2 = none) :
    Answered (t.onClosed w) ∧ (t.onClosed w).running = false ∧
      (t.joined.onClosed w).settled = (t.onClosed w).settled := by
  have hline := h.rest_utf8 hutf8
  rw [h.rest] at hrest
  by_cases happended : t.appended = []
  · rw [onClosed_of_nil happended]
    refine ⟨Or.inl h.answered, rfl, ?_⟩
    by_cases hempty : t.line ++ t.appended = []
    · rw [onClosed_of_nil hempty]
      rfl
    · have hnone : w.valueOf ([] ++ (t.line ++ t.appended)) = none :=
        (hrest happended).resolve_left hempty
      rw [onClosed_of_utf8 hempty hline]
      change ({ t.joined.handleLine w ([] ++ (t.line ++ t.appended)) with running := false } :
        ClientThread).settled = _
      rw [ClientThread.handleLine_of_none hnone]
      rfl
  · have hempty : t.line ++ t.appended ≠ [] := fun hnil ↦
      happended (List.append_eq_nil_iff.mp hnil).2
    rw [onClosed_of_utf8 happended (h.appended_utf8 hutf8), onClosed_of_utf8 hempty hline]
    refine ⟨?_, rfl, ?_⟩
    · have hreceived := ClientThread.received_handleLine w t (t.line ++ t.appended)
      unfold Answered
      dsimp only
      rw [hreceived, ← h.answered, h.rest]
      exact (ClientThread.responses_handleLine w t _).imp id fun hlast ↦ ⟨rfl, hlast⟩
    · have hjoined : t.joined.handleLine w ([] ++ (t.line ++ t.appended)) =
          t.handleLine w (t.line ++ t.appended) := by
        rw [List.nil_append, ← ClientThread.handleLine_settled,
          ← ClientThread.handleLine_settled w t]
        rfl
      change ({ t.joined.handleLine w ([] ++ (t.line ++ t.appended)) with running := false } :
        ClientThread).settled = _
      rw [hjoined]

/-- What is kept of the thread `t` and the thread `u` that has the same stream in one piece. -/
structure Mirrors (t u : ClientThread) : Prop where
  settled : u.settled = t.settled
  answered : Answered t
  framed : t.running = true → Framed t ∧ u = t.joined

/-- A step that keeps the framing. -/
theorem Mirrors.step (h : Mirrors t u) (hsends : SendsUtf8 t a) (hkeeps : KeepsFraming w t a) :
    Mirrors (t.step w a) (if a.isReady then u.step w a else u) := by
  unfold ClientThread.step
  have hsame : u.running = t.running := by
    have hsettled := congrArg ClientThread.running h.settled
    exact hsettled
  cases hrunning : t.running with
  | false =>
    rw [hsame, hrunning, if_neg Bool.false_ne_true, if_neg Bool.false_ne_true, ite_self]
    exact h
  | true =>
    obtain ⟨hframed, rfl⟩ := h.framed hrunning
    have hjoined : t.joined.running = true := hrunning
    rw [hjoined, if_pos rfl]
    cases a with
    | byte b =>
      by_cases hb : b = newline
      · subst hb
        obtain ⟨more, hutf8⟩ := hsends
        obtain ⟨hnext, heq⟩ := hframed.lineEnd hutf8 (hkeeps rfl)
        have hsettled := congrArg ClientThread.settled heq
        exact ⟨hsettled, Or.inl hnext.answered, fun _ ↦ ⟨hnext, heq⟩⟩
      · obtain ⟨hnext, heq⟩ := hframed.byte (w := w) hb
        have hsettled := congrArg ClientThread.settled heq
        exact ⟨hsettled, Or.inl hnext.answered, fun _ ↦ ⟨hnext, heq⟩⟩
    | wouldBlock =>
      obtain ⟨hnext, heq⟩ := hframed.wouldBlock hkeeps
      have hsettled := congrArg ClientThread.settled heq.symm
      exact ⟨hsettled, Or.inl hnext.answered, fun _ ↦ ⟨hnext, heq.symm⟩⟩
    | closed =>
      obtain ⟨hanswered, hended, heq⟩ := hframed.closed (w := w) hsends hkeeps
      refine ⟨heq, hanswered, fun hrun ↦ ?_⟩
      exact absurd (hended.symm.trans hrun) (by decide)

end Steps

section Runs

variable {w : Surroundings} {s : Engine} {t : ClientThread} {arrivals : List Arrival}

/-- For every stream of UTF-8 and every way to split it: wherever the thread of the client gets to,
if what came on the way keeps the framing, it has dispatched the commands that it dispatches for
the stream in one piece, and answered every line that ended, once and in order. -/
theorem framing_kept (path : Path (fun t a ↦ some (t.step w a))
      (fun t a ↦ SendsUtf8 t a ∧ KeepsFraming w t a) (.fresh s) arrivals t) :
    t.commands = (unsplit w s arrivals).commands ∧ Answered t := by
  have hmirrors : Mirrors t (unsplit w s arrivals) := by
    induction path with
    | nil =>
      exact ⟨rfl, Or.inl rfl, fun _ ↦ ⟨⟨rfl, .nil, .nil, rfl⟩, rfl⟩⟩
    | @snoc arrivals t u a path hC hs ih =>
      cases hs
      have hstep := ih.step hC.1 hC.2
      have hunsplit : unsplit w s (arrivals ++ [a]) =
          if a.isReady then (unsplit w s arrivals).step w a else unsplit w s arrivals := by
        unfold unsplit
        rw [List.filter_append, List.foldl_append]
        cases a <;> rfl
      rw [hunsplit]
      exact hstep
  have hcommands := congrArg ClientThread.commands hmirrors.settled
  exact ⟨hcommands.symm, hmirrors.answered⟩

end Runs

/-- Surroundings in which every shim call returns 0 and one text is JSON. -/
def onlyJson (text : String) (v : Json) : Surroundings where
  parseJson line := if line = text then some v else none
  env _ := quietEnv
  others _ := id

/-- The bytes of a text. -/
def bytesOf (text : String) : List Arrival := text.toByteArray.data.toList.map .byte

/-- A test for a step that keeps the framing of a stream of ASCII. -/
def plainStep (w : Surroundings) (t : ClientThread) : Arrival → Bool
  | .byte b => IsUtf8 (t.received ++ [b]) && (b ≠ newline ||
      ((w.valueOf ((splitLines t.received).2 ++ [b])).any fun v ↦
        (w.dispatch t (commandIn v)).value.isOk))
  | .wouldBlock => IsUtf8 t.received
  | .closed => IsUtf8 t.received && (splitLines t.received).2 = []

/-- A step that passes the test. -/
theorem keeps_of_plainStep {w : Surroundings} {t : ClientThread} {a : Arrival}
    (h : plainStep w t a = true) : SendsUtf8 t a ∧ KeepsFraming w t a := by
  cases a with
  | byte b =>
    obtain ⟨hutf8, hline⟩ := Bool.and_eq_true_iff.mp h
    refine ⟨⟨[], of_decide_eq_true hutf8⟩, fun hb ↦ ?_⟩
    rw [Bool.or_eq_true, decide_eq_true_eq] at hline
    obtain ⟨v, hv, hok⟩ := (Option.any_eq_true _ _).mp (hline.resolve_left (not_not_intro hb))
    cases hrc : (w.dispatch t (commandIn v)).value with
    | ok rc => exact ⟨v, hv, rc, hrc⟩
    | error =>
      rw [hrc] at hok
      cases hok
  | wouldBlock =>
    have hreceived : IsUtf8 t.received := of_decide_eq_true h
    exact ⟨trivial, hreceived⟩
  | closed =>
    obtain ⟨hutf8, hrest⟩ := Bool.and_eq_true_iff.mp h
    have hreceived : IsUtf8 t.received := of_decide_eq_true hutf8
    exact ⟨hreceived, fun _ ↦ Or.inl (of_decide_eq_true hrest)⟩

/-- A line that is a command. -/
def pingLine : String := "\x7b\"type\":\"EnginePing\"\x7d\n"

/-- Surroundings in which that line is JSON. -/
def pingSurroundings : Surroundings := onlyJson pingLine (.obj [("type", .str "EnginePing")])

/-- The line in two pieces. -/
def twoPieces : List Arrival :=
  (bytesOf pingLine).take 8 ++ [Arrival.wouldBlock] ++ (bytesOf pingLine).drop 8 ++ [Arrival.closed]

/-- A line that comes in two pieces, as an instance. -/
theorem framing_kept_twoPieces :
    ∃ t, Path (fun t a ↦ some (t.step pingSurroundings a)) (fun _ _ ↦ True)
        (.fresh Engine.initial) twoPieces t ∧ t.responses.length = 1 ∧
      t.commands = (unsplit pingSurroundings Engine.initial twoPieces).commands ∧ Answered t := by
  have h : (twoPieces.foldlM (fun t a ↦
      if plainStep pingSurroundings t a = true then some (t.step pingSurroundings a) else none)
      (.fresh Engine.initial)).map (fun t ↦ t.responses.length) = some 1 := by decide
  obtain ⟨t, ht, hlength⟩ := Option.map_eq_some_iff.mp h
  have path := (Path.of_guarded ht).imp fun _ _ ↦ keeps_of_plainStep
  exact ⟨t, path.imp fun _ _ _ ↦ trivial, hlength, framing_kept path⟩

/-- A line with a character of two bytes. -/
def accentLine : String := "\x7b\"type\":\"é\"\x7d\n"

/-- Surroundings in which that line is JSON. -/
def accentSurroundings : Surroundings := onlyJson accentLine (.obj [("type", .str "é")])

/-- The line with a read that would block between those bytes. -/
def splitCharacter : List Arrival :=
  (bytesOf accentLine).take 10 ++ [Arrival.wouldBlock] ++ (bytesOf accentLine).drop 10

/-- Surroundings in which a number is JSON. -/
def numberSurroundings : Surroundings := onlyJson "1" (.ofNat 1)

/-- The number without a newline, and a read that would block before the end. -/
def blockedAtEnd : List Arrival := bytesOf "1" ++ [Arrival.wouldBlock, Arrival.closed]

/-- A read that would block inside a character loses a command, and so does one between a JSON value
without a newline and the end; a line that is no JSON is not answered. -/
theorem lines_lost :
    ((splitCharacter.foldl (ClientThread.step accentSurroundings)
        (.fresh Engine.initial)).commands ≠
      (unsplit accentSurroundings Engine.initial splitCharacter).commands) ∧
    ((blockedAtEnd.foldl (ClientThread.step numberSurroundings) (.fresh Engine.initial)).commands ≠
      (unsplit numberSurroundings Engine.initial blockedAtEnd).commands) ∧
    ¬Answered ((bytesOf "x\n").foldl (ClientThread.step numberSurroundings)
      (.fresh Engine.initial)) := by
  have hlength {commands commands' : List (String × Json)} (h : commands.length = 0)
      (h' : commands'.length = 1) : commands ≠ commands' := by
    rintro rfl
    omega
  refine ⟨hlength (by decide) (by decide), hlength (by decide) (by decide), ?_⟩
  unfold Answered
  decide

end PacketDial.Ipc
