import PacketDial.Ipc.Lines
import PacketDial.Lib.Paths

/-!
# Events for the clients of the pipe

`broadcast_ipc` sends each event to the channels of all clients that are registered, under
`CLIENT_SENDERS`; the thread of a client writes what is in its channel, and the responses to its
commands, to the pipe (`core_rust/src/lib.rs:1038–1041`, `3398–3446`). `pd events` shows the events
among the lines that it reads (`tools/pd/src/main.rs:110–124`). What is written comes whole: a line
of which only a part gets into the pipe is left out.
-/

namespace PacketDial.Ipc

open PacketDial.Core PacketDial.Lib PacketDial.System

/-- Where the thread of a client is: before it has registered its channel, at `try_recv`, at
`read_line`, in `dispatch_command`, or at its end. -/
inductive Phase where
  | accepted
  | receiving
  | reading
  | dispatching
  | ended
  deriving DecidableEq

/-- An event: its type and its payload. -/
abbrev Event := String × Json

/-- What the thread writes: an event, or the response to a command. -/
inductive Written where
  | event (e : Event)
  | response (rc : EngineErrorCode)

/-- A client: its thread, the events in its channel, and what was written to the pipe. -/
structure Client where
  phase : Phase
  channel : List Event
  output : List Written

/-- A client that has connected. -/
def Client.initial : Client := ⟨.accepted, [], []⟩

/-- What the thread of a client does next (`lib.rs:3398–3446`): it registers its channel, writes the
first event of it, finds it empty, finds no command, reads one, writes the response, or ends. It
ends where an event cannot be written; it goes on where a response cannot, and that the response is
then lost, or cut off, is left out. -/
inductive Serve where
  | register
  | write
  | poll
  | block
  | read
  | respond (rc : EngineErrorCode)
  | finish

/-- A step: some thread of the engine broadcasts an event, or the thread of a client goes on. -/
inductive ServerMove (ι : Type) where
  | broadcast (e : Event)
  | serve (i : ι) (a : Serve)

/-- An event comes to a client. The sender of one that has not registered, or has ended, is not in
the list. -/
def Client.receive (c : Client) (e : Event) : Client :=
  if c.phase = .accepted ∨ c.phase = .ended then c else { c with channel := c.channel ++ [e] }

/-- A step of the thread of a client. -/
def Client.serve (c : Client) : Serve → Option Client
  | .register => if c.phase = .accepted then some { c with phase := .receiving } else none
  | .write =>
    match c.channel with
    | e :: rest =>
      if c.phase = .receiving then
        some { c with channel := rest, output := c.output ++ [.event e] }
      else none
    | [] => none
  | .poll =>
    if c.phase = .receiving ∧ c.channel = [] then some { c with phase := .reading } else none
  | .block => if c.phase = .reading then some { c with phase := .receiving } else none
  | .read => if c.phase = .reading then some { c with phase := .dispatching } else none
  | .respond rc =>
    if c.phase = .dispatching then
      some { c with phase := .receiving, output := c.output ++ [.response rc] }
    else none
  | .finish => if c.phase = .accepted then none else some { c with phase := .ended }

/-- One step. -/
def serverStep {ι : Type} [DecidableEq ι] (clients : ι → Client) :
    ServerMove ι → Option (ι → Client)
  | .broadcast e => some fun i ↦ (clients i).receive e
  | .serve i a => ((clients i).serve a).map (Function.update clients i)

/-- The events that are broadcast in a run, in order. -/
def pushed {ι : Type} (moves : List (ServerMove ι)) : List Event :=
  moves.filterMap fun
    | .broadcast e => some e
    | _ => none

/-- The events that were written. -/
def written (output : List Written) : List Event :=
  output.filterMap fun
    | .event e => some e
    | _ => none

section Reading

variable (J : SerdeJson)

/-- The text of an event. -/
def eventText (e : Event) : String := J.toText (eventLine e.1 e.2)

/-- What was written, as a line. -/
def Written.text : Written → String
  | event e => eventText J e ++ "\n"
  | response rc => responseText rc.code

/-- What came through the pipe. -/
def stream (output : List Written) : List UInt8 :=
  output.flatMap fun line ↦ utf8Bytes (line.text J)

/-- A line without its end (`BufRead::lines`). -/
def withoutEnd (line : List UInt8) : List UInt8 :=
  let bytes := if line.getLast? = some newline then line.dropLast else line
  if bytes.getLast? = some 0x0D then bytes.dropLast else bytes

/-- What `listen_events` shows of a line (`main.rs:114–122`). -/
def shownLine (line : String) : List String :=
  match J.fromStr line with
  | some v => if (v.get "type").asStr = some "CommandResponse" then [] else [line]
  | none => []

/-- What `listen_events` shows of the lines that it has read (`main.rs:113–123`), without the
time in front. -/
def shownLines : List (List UInt8) → List String
  | [] => []
  | line :: rest =>
    match decodeUtf8 (withoutEnd line) with
    | some text => shownLine J text ++ shownLines rest
    | none => []

/-- What `pd events` shows of what came through the pipe. -/
def listenEvents (bytes : List UInt8) : List String := shownLines J (splitLines bytes).1

end Reading

section Channels

variable {c c' : Client} {a : Serve} {events : List Event}

/-- The client has got, or will get, these events and no others, as long as its thread goes on. -/
structure Delivers (c : Client) (events : List Event) : Prop where
  registered : c.phase ≠ .accepted
  written : written c.output <+: events
  pending : c.phase ≠ .ended → Ipc.written c.output ++ c.channel = events

/-- One more event. -/
theorem Delivers.receive (h : Delivers c events) (e : Event) :
    Delivers (c.receive e) (events ++ [e]) := by
  unfold Client.receive
  split_ifs with hphase
  · have hended : c.phase = .ended := hphase.resolve_left h.registered
    exact ⟨h.registered, h.written.trans (List.prefix_append _ _), fun hne ↦ absurd hended hne⟩
  · have hall := h.pending fun hended ↦ hphase (Or.inr hended)
    refine ⟨h.registered, h.written.trans (List.prefix_append _ _), fun _ ↦ ?_⟩
    rw [← hall, List.append_assoc]

/-- Writing an event takes it out of the channel; no other step touches the events. -/
theorem Delivers.serve (h : Delivers c events) (hs : c.serve a = some c') :
    Delivers c' events := by
  have respond (rc : EngineErrorCode) :
      Ipc.written (c.output ++ [.response rc]) = Ipc.written c.output := by
    simp [Ipc.written]
  have event (e : Event) : Ipc.written (c.output ++ [.event e]) = Ipc.written c.output ++ [e] := by
    simp [Ipc.written]
  cases a with
  | register =>
    simp only [Client.serve] at hs
    split_ifs at hs with hphase
    exact absurd hphase h.registered
  | write =>
    simp only [Client.serve] at hs
    split at hs
    · next e rest hchannel =>
      split_ifs at hs with hphase
      cases hs
      have hall := h.pending (by rw [hphase]; decide)
      rw [hchannel, List.append_cons, ← event] at hall
      exact ⟨h.registered, ⟨rest, hall⟩, fun _ ↦ hall⟩
    · cases hs
  | poll =>
    simp only [Client.serve] at hs
    split_ifs at hs with hphase
    cases hs
    exact ⟨nofun, h.written, fun _ ↦ h.pending (by rw [hphase.1]; decide)⟩
  | block =>
    simp only [Client.serve] at hs
    split_ifs at hs with hphase
    cases hs
    exact ⟨nofun, h.written, fun _ ↦ h.pending (by rw [hphase]; decide)⟩
  | read =>
    simp only [Client.serve] at hs
    split_ifs at hs with hphase
    cases hs
    exact ⟨nofun, h.written, fun _ ↦ h.pending (by rw [hphase]; decide)⟩
  | respond rc =>
    simp only [Client.serve] at hs
    split_ifs at hs with hphase
    cases hs
    refine ⟨nofun, ?_, fun _ ↦ ?_⟩
    · rw [respond]
      exact h.written
    · rw [respond]
      exact h.pending (by rw [hphase]; decide)
  | finish =>
    simp only [Client.serve] at hs
    split_ifs at hs with hphase
    cases hs
    exact ⟨nofun, h.written, fun hne ↦ absurd rfl hne⟩

/-- Before it registers, nothing happens to a client. -/
def Untouched (c : Client) : Prop := c.phase = .accepted → c = .initial

/-- An event does not reach a client that has not registered. -/
theorem Untouched.receive (h : Untouched c) (e : Event) : Untouched (c.receive e) := by
  unfold Client.receive
  split_ifs with hphase
  · exact h
  · exact fun haccepted ↦ absurd (Or.inl haccepted) hphase

/-- No thread comes back to where it has not registered. -/
theorem untouched_serve (hs : c.serve a = some c') : Untouched c' := by
  intro haccepted
  cases a with
  | write =>
    simp only [Client.serve] at hs
    split at hs
    · split_ifs at hs with hphase
      cases hs
      rw [hphase] at haccepted
      cases haccepted
    · cases hs
  | _ =>
    simp only [Client.serve] at hs
    split_ifs at hs
    cases hs
    cases haccepted

end Channels

section Runs

variable {ι : Type} [DecidableEq ι] {clients : ι → Client} {moves : List (ServerMove ι)} {i : ι}

/-- A client gets the events that are broadcast. -/
theorem delivers_run {start : ι → Client} (h : Delivers (start i) [])
    (run : moves.foldlM serverStep start = some clients) : Delivers (clients i) (pushed moves) := by
  have path := Path.of_foldlM run
  clear run
  induction path with
  | nil => exact h
  | @snoc moves t u m first _ hs ih =>
    cases m with
    | broadcast e =>
      cases hs
      have hpushed : pushed (moves ++ [.broadcast e]) = pushed moves ++ [e] := by simp [pushed]
      rw [hpushed]
      exact ih.receive e
    | serve j a =>
      have hpushed : pushed (moves ++ [.serve j a]) = pushed moves := by simp [pushed]
      obtain ⟨c, hc, rfl⟩ := Option.map_eq_some_iff.mp hs
      rw [hpushed]
      by_cases hij : i = j
      · subst hij
        rw [Function.update_self]
        exact ih.serve hc
      · rw [Function.update_of_ne hij]
        exact ih

/-- A client that has registered in a run gets the events that were broadcast since. -/
theorem delivers_registered {before after : List (ServerMove ι)}
    (run : (before ++ .serve i .register :: after).foldlM serverStep (fun _ ↦ Client.initial) =
      some clients) : Delivers (clients i) (pushed after) := by
  rw [List.foldlM_append] at run
  obtain ⟨start, hbefore, run⟩ := Option.bind_eq_some_iff.mp run
  rw [List.foldlM_cons] at run
  obtain ⟨registered, hregister, hafter⟩ := Option.bind_eq_some_iff.mp run
  have huntouched : Untouched (start i) := by
    refine (Path.of_foldlM hbefore).invariant (I := fun u ↦ Untouched (u i)) (fun _ ↦ rfl) ?_
    intro u m v hu _ hs
    cases m with
    | broadcast e =>
      cases hs
      exact hu.receive e
    | serve j a =>
      obtain ⟨c, hc, rfl⟩ := Option.map_eq_some_iff.mp hs
      by_cases hij : i = j
      · subst hij
        rw [Function.update_self]
        exact untouched_serve hc
      · rw [Function.update_of_ne hij]
        exact hu
  obtain ⟨c, hc, rfl⟩ := Option.map_eq_some_iff.mp hregister
  simp only [Client.serve] at hc
  split_ifs at hc with hphase
  cases hc
  refine delivers_run ?_ hafter
  rw [Function.update_self, huntouched hphase]
  exact ⟨by decide, List.prefix_rfl, fun _ ↦ rfl⟩

end Runs

section Texts

variable {J : SerdeJson} {e : Event} {bytes more : List UInt8} {lines : List (List UInt8)}

/-- A line that ends in a newline, and no carriage return before it, loses just that. -/
theorem withoutEnd_newline (h : 0x0D ∉ bytes) : withoutEnd (bytes ++ [newline]) = bytes := by
  have hlast : bytes.getLast? ≠ some 0x0D := fun heq ↦ h (List.mem_of_getLast? heq)
  simp [withoutEnd, hlast]

/-- Lines of the stream stay lines when more comes. -/
theorem splitLines_prefix (bytes more : List UInt8) :
    (splitLines bytes).1 <+: (splitLines (bytes ++ more)).1 := by
  induction more using List.reverseRecOn with
  | nil => simp
  | append_singleton more b ih =>
    rw [← List.append_assoc, splitLines_concat]
    split_ifs
    · exact ih.trans (List.prefix_append _ _)
    · exact ih

/-- What was shown stays shown when more lines come. -/
theorem shownLines_prefix (lines more : List (List UInt8)) :
    shownLines J lines <+: shownLines J (lines ++ more) := by
  induction lines with
  | nil => exact List.nil_prefix
  | cons line lines ih =>
    rw [List.cons_append, shownLines, shownLines]
    split
    · exact (List.prefix_append_right_inj _).mpr ih
    · exact List.prefix_rfl

/-- A part of the stream shows a part of the events. -/
theorem listenEvents_prefix (h : bytes <+: more) :
    listenEvents J bytes <+: listenEvents J more := by
  obtain ⟨rest, rfl⟩ := h
  obtain ⟨lines, hlines⟩ := splitLines_prefix bytes rest
  unfold listenEvents
  rw [← hlines]
  exact shownLines_prefix _ _

/-- Lines that follow each other are split again. -/
theorem splitLines_flatMap {lines : List (List UInt8)} (h : ∀ line ∈ lines, newline ∉ line) :
    splitLines (lines.flatMap fun line ↦ line ++ [newline]) =
      (lines.map fun line ↦ line ++ [newline], []) := by
  induction lines using List.reverseRecOn with
  | nil => rfl
  | append_singleton lines line ih =>
    obtain ⟨hlines, hline⟩ := List.forall_mem_append.mp h
    have hnew : newline ∉ line := hline line (List.mem_singleton_self line)
    rw [List.flatMap_append, List.flatMap_singleton, ← List.append_assoc, splitLines_concat,
      if_pos rfl, splitLines_append hnew, ih hlines]
    simp

/-- The text of what was written, without the newline. -/
def Written.content (J : SerdeJson) : Written → List Char
  | event e => (eventText J e).toList
  | response rc => writeValue halfText (responseLine rc.code)

/-- It holds no control characters. -/
theorem noControls_content (hJ : J.Sound) (line : Written) : NoControls (line.content J) := by
  cases line with
  | event e => exact hJ.noControls_toText _
  | response rc => exact noControls_writeValue halfText _

/-- The bytes of a line that was written. -/
theorem utf8Bytes_text (J : SerdeJson) (line : Written) : utf8Bytes (line.text J) =
    (line.content J).flatMap String.utf8EncodeChar ++ [newline] := by
  have htext : (line.text J).toList = line.content J ++ ['\n'] := by
    cases line with
    | event e => simp [Written.text, Written.content]
    | response rc => exact toList_responseText halfText rc.code
  rw [utf8Bytes_eq, htext, List.flatMap_append]
  rfl

/-- An event that can be told from a response, and whose payload can be read in its line. -/
structure Showable (e : Event) : Prop where
  value : IsValue e.2
  nesting : depth e.2 < nestingLimit
  type : e.1 ≠ "CommandResponse"

/-- What is shown of a line that was written: an event, and nothing of a response. -/
theorem shownLine_content (hJ : J.Sound) {line : Written}
    (h : ∀ e ∈ written [line], Showable e) :
    shownLine J (String.ofList (line.content J)) = (written [line]).map (eventText J) := by
  cases line with
  | event e =>
    obtain ⟨hvalue, hnesting, htype⟩ := h e List.mem_cons_self
    have hline : IsValue (eventLine e.1 e.2) := isValue_line hvalue
    have hdepth : depth (eventLine e.1 e.2) ≤ nestingLimit := by
      rw [eventLine, depth_line]
      exact hnesting
    have hread : J.fromStr (eventText J e) = some (J.settled (eventLine e.1 e.2)) := by
      have hread := hJ.fromStr_toText _ hline hdepth [] rfl
      rwa [String.ofList_nil, String.append_empty] at hread
    have htypes : ((J.settled (eventLine e.1 e.2)).get "type").asStr = some e.1 := by
      rw [SerdeJson.settled, get_rereadValue, get_byKey hline]
      rfl
    rw [Written.content, String.ofList_toList, shownLine, hread]
    dsimp only
    rw [htypes, if_neg (by simpa using htype)]
    rfl
  | response rc =>
    obtain ⟨hlow, hhigh⟩ := code_range rc
    have hread := fromStr_response hJ hlow hhigh [] rfl
    rw [List.append_nil] at hread
    have htypes : ((byKey (responseLine rc.code)).get "type").asStr = some "CommandResponse" := by
      rw [get_byKey (isValue_responseLine hlow hhigh)]
      rfl
    rw [Written.content, shownLine, hread]
    dsimp only
    rw [if_pos htypes]
    rfl

/-- What is shown of all that was written. -/
theorem listenEvents_stream (hJ : J.Sound) {output : List Written}
    (h : ∀ e ∈ written output, Showable e) :
    listenEvents J (stream J output) = (written output).map (eventText J) := by
  let bytesOf (line : Written) : List UInt8 := (line.content J).flatMap String.utf8EncodeChar
  have hstream : stream J output =
      (output.map bytesOf).flatMap fun line ↦ line ++ [newline] := by
    rw [stream, List.flatMap_map]
    exact congrArg (output.flatMap ·) (funext (utf8Bytes_text J))
  have hnew : ∀ line ∈ output.map bytesOf, newline ∉ line := by
    intro bytes hbytes
    obtain ⟨line, -, rfl⟩ := List.mem_map.mp hbytes
    exact control_notMem (noControls_content hJ line) (by decide)
  rw [listenEvents, hstream, splitLines_flatMap hnew]
  clear hstream hnew
  induction output with
  | nil => rfl
  | cons line output ih =>
    have hsplit : written (line :: output) = written [line] ++ written output :=
      List.filterMap_append (l := [line])
    rw [hsplit] at h ⊢
    obtain ⟨hline, houtput⟩ := List.forall_mem_append.mp h
    have hreturn : 0x0D ∉ bytesOf line := control_notMem (noControls_content hJ line) (by decide)
    have hshown := ih houtput
    dsimp only at hshown ⊢
    rw [List.map_cons, List.map_cons, shownLines, withoutEnd_newline hreturn, decodeUtf8_flatMap]
    dsimp only
    rw [shownLine_content hJ hline, hshown, List.map_append]

end Texts

section Shown

variable {J : SerdeJson} {ι : Type} [DecidableEq ι] {clients : ι → Client} {i : ι}
  {before after : List (ServerMove ι)}

/-- For any number of clients, in any interleaving: what `pd events` shows of what it has read are
the first of the events that were broadcast since its client registered, in the order in which
they were broadcast, and once it has read all that was written only those are missing that are
still in the channel. -/
theorem events_shown (hJ : J.Sound) (h : ∀ e ∈ pushed after, Showable e)
    (run : (before ++ .serve i .register :: after).foldlM serverStep (fun _ ↦ Client.initial) =
      some clients) :
    (∀ bytes, bytes <+: stream J (clients i).output →
        listenEvents J bytes <+: (pushed after).map (eventText J)) ∧
      ((clients i).phase ≠ .ended →
        listenEvents J (stream J (clients i).output) ++ (clients i).channel.map (eventText J) =
          (pushed after).map (eventText J)) := by
  have delivers := delivers_registered run
  have hall : listenEvents J (stream J (clients i).output) =
      (written (clients i).output).map (eventText J) :=
    listenEvents_stream hJ fun e he ↦ h e (delivers.written.subset he)
  constructor
  · intro bytes hbytes
    have hshown := listenEvents_prefix (J := J) hbytes
    rw [hall] at hshown
    exact hshown.trans (delivers.written.map _)
  · intro hphase
    rw [hall, ← List.map_append, delivers.pending hphase]

/-- A first event, before which only one of two clients has registered. -/
def firstMoves : List (ServerMove Bool) :=
  [.serve true .register, .broadcast ("EngineReady", .obj [])]

/-- A second event, which is written to the other client. -/
def secondMoves : List (ServerMove Bool) :=
  [.broadcast ("EnginePong", .obj []), .serve false .write, .serve true .write]

/-- The second event is shown to the client that registers after the first, as an instance. -/
theorem events_shown_second : ∃ clients : Bool → Client,
    (firstMoves ++ .serve false .register :: secondMoves).foldlM serverStep
        (fun _ ↦ Client.initial) = some clients ∧
      listenEvents (grammarSerde halfText)
            (stream (grammarSerde halfText) (clients false).output) ++
          (clients false).channel.map (eventText (grammarSerde halfText)) =
        [eventText (grammarSerde halfText) ("EnginePong", .obj [])] := by
  have hruns : ((firstMoves ++ .serve false .register :: secondMoves).foldlM serverStep
      (fun _ ↦ Client.initial)).map (fun clients ↦ (clients false).phase) =
        some .receiving := by decide
  obtain ⟨clients, hrun, hphase⟩ := Option.map_eq_some_iff.mp hruns
  have hshowable : ∀ e ∈ pushed secondMoves, Showable e := by
    rintro e he
    obtain rfl := List.mem_singleton.mp he
    exact ⟨⟨List.nodup_nil, trivial⟩, by decide, by decide⟩
  exact ⟨clients, hrun, (events_shown (grammarSerde_sound halfText) hshowable hrun).2
    (by rw [hphase]; decide)⟩

end Shown

end PacketDial.Ipc
