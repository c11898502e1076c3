import PacketDial.Core.Lowercase
import PacketDial.Core.Serde
import PacketDial.Ipc.Reply

/-!
# The texts on the pipe

Commands, responses and events are lines of JSON. `pd` and `push_event` write theirs with
`serde_json` (`tools/pd/src/main.rs:46–89`, `core_rust/src/lib.rs:1029–1035`), `handle_api_client`
formats its responses itself (`lib.rs:3427–3430`). Each side reads what the other wrote.
-/

namespace PacketDial.Ipc

open PacketDial.Core PacketDial.Lib PacketDial.System

/-- A value as a line (`main.rs:87`, `lib.rs:1029–1035` with `3413–3416`). -/
def lineText (J : SerdeJson) (value : Json) : String := J.toText value ++ "\n"

/-- The line of a response (`lib.rs:3427–3430`). -/
def responseText (rc : Int) : String :=
  "\x7b\"type\":\"CommandResponse\",\"payload\":\x7b\"rc\":" ++ toString rc ++ "\x7d\x7d\n"

/-- The subcommands of `pd` that send a command (`main.rs:15–41`). -/
inductive PdCommand where
  | dial (uri : String) (account : Option String)
  | answer
  | hangup
  | mute (status : String)
  | hold (status : String)

/-- The test for `on` (`main.rs:74`, `78`). -/
def isOn (status : String) : Bool :=
  let lower := toLowercase status.toList
  lower == "on".toList || lower == "true".toList

/-- The type and the payload of a command (`main.rs:58–81`). -/
def PdCommand.message : PdCommand → String × Json
  | dial uri (some account) => ("CallStart", .obj [("account_id", .str account), ("uri", .str uri)])
  | dial uri none => ("CallStart", .obj [("uri", .str uri)])
  | answer => ("CallAnswer", .obj [])
  | hangup => ("CallHangup", .obj [])
  | mute status => ("CallMute", .obj [("muted", .bool (isOn status))])
  | hold status => ("CallHold", .obj [("hold", .bool (isOn status))])

/-- What `send_command` writes (`main.rs:86–89`). -/
def PdCommand.text (J : SerdeJson) (c : PdCommand) : String :=
  lineText J (commandLine c.message.1 c.message.2)

section Lines

variable {J : SerdeJson} {value payload : Json} {type : String} {rc : Int}

/-- A line is read as the value that was written. -/
theorem fromStr_lineText (hJ : J.Sound) (h : IsValue value) (hdepth : depth value ≤ nestingLimit) :
    J.fromStr (lineText J value) = some (J.settled value) :=
  hJ.fromStr_toText value h hdepth ['\n'] rfl

/-- The lines of commands and events are values. -/
theorem isValue_line (h : IsValue payload) :
    IsValue (.obj [("type", .str type), ("payload", payload)]) := by
  refine ⟨by simp, trivial, h, trivial⟩

/-- A line is nested by one more than what it carries. -/
theorem depth_line (type : String) (payload : Json) :
    depth (.obj [("type", .str type), ("payload", payload)]) = depth payload + 1 := by
  simp [depth, depthMembers]

/-- The type and the payload of a line that was read. -/
theorem commandIn_settled (h : IsValue payload) :
    commandIn (J.settled (.obj [("type", .str type), ("payload", payload)])) =
      (type, J.settled payload) := by
  unfold commandIn SerdeJson.settled
  rw [get_rereadValue, get_rereadValue, get_byKey (isValue_line h), get_byKey (isValue_line h)]
  simp [Json.get, byKey, rereadValue, Json.asStr]

/-- What a response is written like. -/
theorem toList_responseText (W : FloatText) (rc : Int) :
    (responseText rc).toList = writeValue W (responseLine rc) ++ ['\n'] := by
  have hnumber : (toString rc).toList = writeValue W (.ofI32 rc) := by
    unfold Json.ofI32
    rw [toList_toString]
    split_ifs with h
    · rfl
    · rw [writeValue, writeNumber, toList_toString, if_neg h]
  have hfront : "\x7b\"type\":\"CommandResponse\",\"payload\":\x7b\"rc\":".toList =
      '\x7b' :: (writeString "type".toList ++ ':' :: (writeString "CommandResponse".toList ++
        ',' :: (writeString "payload".toList ++ ':' :: '\x7b' :: (writeString "rc".toList ++
          [':'])))) := by decide
  have hback : "\x7d\x7d\n".toList = ['\x7d', '\x7d', '\n'] := by decide
  unfold responseText responseLine
  simp only [String.toList_append, hfront, hnumber, hback, writeValue, writeMembers,
    List.append_assoc, List.cons_append, List.nil_append]

/-- The line of a response is a value. -/
theorem isValue_responseLine (hlow : -2 ^ 63 ≤ rc) (hhigh : rc < 2 ^ 63) :
    IsValue (responseLine rc) := by
  have hvalue : IsValue (.ofI32 rc) := by
    unfold Json.ofI32
    split_ifs with h
    · change rc.toNat < 2 ^ 64
      omega
    · exact ⟨hlow, by omega⟩
  exact ⟨by simp, trivial, ⟨by simp, hvalue, trivial⟩, trivial⟩

/-- A response is read as the value that stands for it. -/
theorem fromStr_response (hJ : J.Sound) (hlow : -2 ^ 63 ≤ rc) (hhigh : rc < 2 ^ 63)
    (space : List Char) (hspace : skipSpace space = []) :
    J.fromStr (String.ofList (writeValue halfText (responseLine rc) ++ space)) =
      some (byKey (responseLine rc)) := by
  have hsame : rereadValue halfText.reread (responseLine rc) = responseLine rc := by
    unfold responseLine Json.ofI32
    split_ifs <;> rfl
  have hread := readJson_writeValue halfText (isValue_responseLine hlow hhigh) space hspace
  rw [hsame] at hread
  have hexact : Exact (responseLine rc) := by
    unfold responseLine Json.ofI32
    split_ifs <;> exact ⟨trivial, ⟨trivial, trivial⟩, trivial⟩
  have hdepth : depth (responseLine rc) ≤ nestingLimit := by
    unfold responseLine Json.ofI32
    split_ifs <;> simp [depth, depthMembers, nestingLimit]
  exact hJ.conforming.reads _ _ hread hexact hdepth

/-- The codes of the engine are integers of 64 bits. -/
theorem code_range (rc : EngineErrorCode) : -2 ^ 63 ≤ rc.code ∧ rc.code < 2 ^ 63 := by
  cases rc <;> decide

/-- The code of a response is what `pd` reads. -/
theorem reportedRc_responseText (hJ : J.Sound) (rc : EngineErrorCode) :
    (J.fromStr (responseText rc.code)).map reportedRc = some rc.code := by
  obtain ⟨hlow, hhigh⟩ := code_range rc
  have hline := isValue_responseLine hlow hhigh
  have hread := fromStr_response hJ hlow hhigh ['\n'] rfl
  rw [← toList_responseText, String.ofList_toList] at hread
  have hnumber : (byKey (.ofI32 rc.code)).asI64 = (Json.ofI32 rc.code).asI64 := by
    unfold Json.ofI32
    split_ifs <;> rfl
  have hsorted : reportedRc (byKey (responseLine rc.code)) = reportedRc (responseLine rc.code) := by
    have hpayload : IsValue ((responseLine rc.code).get "payload") := hline.2.2.1
    unfold reportedRc
    rw [get_byKey hline, get_byKey hpayload]
    exact congrArg (Option.getD · (-1)) hnumber
  rw [hread, Option.map_some, hsorted, reportedRc_responseLine]

/-- A line ends where it ends: there is no newline before. -/
theorem toList_lineText (hJ : J.Sound) (value : Json) : ∃ text, NoControls text ∧
    lineText J value = String.ofList (text ++ ['\n']) := by
  refine ⟨(J.toText value).toList, hJ.noControls_toText value, ?_⟩
  rw [lineText, ← String.toList_inj]
  simp

/-- Texts without control characters have none among their bytes. -/
theorem control_notMem {text : List Char} (h : NoControls text) {b : UInt8} (hb : b.toNat < 0x20) :
    b ∉ text.flatMap String.utf8EncodeChar := by
  intro hmem
  obtain ⟨c, hc, hmem⟩ := List.mem_flatMap.mp hmem
  have hcode : c.toNat = b.toNat := toNat_of_mem_encode (by omega) hmem
  have hcontrol : isControl c = true := by simpa [isControl, hcode] using hb
  rw [h c hc] at hcontrol
  cases hcontrol

/-- The bytes of a line. -/
theorem utf8Bytes_lineText (hJ : J.Sound) (value : Json) : ∃ bytes, newline ∉ bytes ∧
    IsUtf8 bytes ∧ utf8Bytes (lineText J value) = bytes ++ [newline] := by
  obtain ⟨text, htext, hline⟩ := toList_lineText hJ value
  refine ⟨text.flatMap String.utf8EncodeChar, control_notMem htext (by decide), ⟨text, rfl⟩, ?_⟩
  rw [utf8Bytes_eq, hline, String.toList_ofList, List.flatMap_append]
  rfl

end Lines

section Threads

variable {w : Surroundings} {t : ClientThread} {s : Engine} {front arrivals : List Arrival}
  {bytes : List UInt8}

/-- The byte that arrives. -/
def Arrival.byte? : Arrival → Option UInt8
  | .byte b => some b
  | _ => none

/-- The bytes among what arrives. -/
def bytesIn (arrivals : List Arrival) : List UInt8 := arrivals.filterMap Arrival.byte?

theorem bytesIn_map (bytes : List UInt8) : bytesIn (bytes.map Arrival.byte) = bytes := by
  rw [bytesIn, List.filterMap_map]
  exact List.filterMap_some

theorem bytesIn_filter (arrivals : List Arrival) :
    bytesIn (arrivals.filter Arrival.isReady) = bytesIn arrivals := by
  rw [bytesIn, List.filterMap_filter]
  congr 1
  funext a
  cases a <;> rfl

/-- Reads block between characters only. -/
def BlocksBetween (arrivals : List Arrival) : Prop :=
  ∀ first, first ++ [.wouldBlock] <+: arrivals → IsUtf8 (bytesIn first)

/-- A part of a line has come, in whatever pieces. -/
theorem framed_part (hopen : ∀ a ∈ front, a = .wouldBlock ∨ ∃ b, b ≠ newline ∧ a = .byte b)
    (hblock : BlocksBetween front) :
    ∃ t, front.foldl (ClientThread.step w) (.fresh s) = t ∧ Framed t ∧ t.running = true ∧
      t.engine = s ∧ t.commands = [] ∧ t.responses = [] ∧ t.received = bytesIn front := by
  induction front using List.reverseRecOn with
  | nil => exact ⟨_, rfl, ⟨rfl, .nil, .nil, rfl⟩, rfl, rfl, rfl, rfl, rfl⟩
  | append_singleton front a ih =>
    obtain ⟨hfront, ha⟩ := List.forall_mem_append.mp hopen
    obtain ⟨t, ht, hframed, hrunning, hengine, hcommands, hresponses, hreceived⟩ :=
      ih hfront fun first hfirst ↦ hblock first (hfirst.trans (List.prefix_append _ _))
    rw [List.foldl_append, ht, List.foldl_cons, List.foldl_nil, ClientThread.step.eq_def,
      if_pos hrunning]
    rcases ha a (List.mem_singleton_self a) with rfl | ⟨b, hb, rfl⟩
    · have hutf8 : IsUtf8 t.received := hreceived ▸ hblock front List.prefix_rfl
      refine ⟨_, rfl, (hframed.wouldBlock hutf8).1, ?_⟩
      dsimp only
      rw [ClientThread.onWouldBlock, if_pos (hframed.appended_utf8 hutf8)]
      refine ⟨hrunning, hengine, hcommands, hresponses, hreceived.trans ?_⟩
      simp [bytesIn, Arrival.byte?]
    · refine ⟨_, rfl, (hframed.byte hb).1, ?_⟩
      dsimp only
      rw [ClientThread.onByte, if_neg hb]
      refine ⟨hrunning, hengine, hcommands, hresponses, ?_⟩
      simp [bytesIn, Arrival.byte?, hreceived]

/-- More of a line. -/
theorem splitLines_append {line : List UInt8} (h : newline ∉ line) (bytes : List UInt8) :
    splitLines (bytes ++ line) = ((splitLines bytes).1, (splitLines bytes).2 ++ line) := by
  induction line using List.reverseRecOn with
  | nil => simp
  | append_singleton line b ih =>
    simp only [List.mem_append, List.mem_singleton, not_or] at h
    rw [← List.append_assoc, splitLines_concat, if_neg (Ne.symm h.2), ih h.1, List.append_assoc]

/-- A client that has read all its lines and waits. -/
theorem foldl_wouldBlock (happended : t.appended = [])
    (harrivals : ∀ a ∈ arrivals, a = .wouldBlock) :
    arrivals.foldl (ClientThread.step w) t = t := by
  induction arrivals with
  | nil => rfl
  | cons a arrivals ih =>
    obtain ⟨rfl, hrest⟩ := List.forall_mem_cons.mp harrivals
    have hstep : t.step w .wouldBlock = t := by
      have hnil : IsUtf8 t.appended := happended ▸ .nil
      rw [ClientThread.step.eq_def]
      split_ifs
      · change t.onWouldBlock = t
        rw [ClientThread.onWouldBlock, if_pos hnil, happended, List.append_nil, ← happended]
      · rfl
    rw [List.foldl_cons, hstep, ih hrest]

/-- The arrivals of a line: its bytes, then the newline, and reads that would block. -/
theorem split_arrivals (h : arrivals.filter Arrival.isReady =
      (bytes ++ [newline]).map Arrival.byte) (hbytes : newline ∉ bytes) :
    ∃ front rest, arrivals = front ++ .byte newline :: rest ∧
      (∀ a ∈ front, a = .wouldBlock ∨ ∃ b, b ≠ newline ∧ a = .byte b) ∧
      bytesIn front = bytes ∧ ∀ a ∈ rest, a = .wouldBlock := by
  rw [List.map_append, List.filter_eq_append_iff] at h
  obtain ⟨front, back, rfl, hfront, hback⟩ := h
  rw [List.map_singleton, List.filter_eq_cons_iff] at hback
  obtain ⟨blocks, rest, rfl, hblocks, -, hrest⟩ := hback
  have hwould {l : List Arrival} (hl : ∀ a ∈ l, a.isReady ≠ true) : ∀ a ∈ l, a = .wouldBlock := by
    intro a ha
    have hnot := hl a ha
    cases a with
    | wouldBlock => rfl
    | byte b => exact absurd rfl hnot
    | closed => exact absurd rfl hnot
  have hready : ∀ a ∈ front, a = .wouldBlock ∨ ∃ b, b ≠ newline ∧ a = .byte b := by
    intro a ha
    by_cases hnot : a.isReady = true
    · have hmem : a ∈ bytes.map Arrival.byte := hfront ▸ List.mem_filter.mpr ⟨ha, hnot⟩
      obtain ⟨b, hb, rfl⟩ := List.mem_map.mp hmem
      exact Or.inr ⟨b, fun heq ↦ hbytes (heq ▸ hb), rfl⟩
    · exact Or.inl (hwould (l := [a]) (by simpa using hnot) a (List.mem_singleton_self a))
  refine ⟨front ++ blocks, rest, by simp, ?_, ?_, hwould (List.filter_eq_nil_iff.mp hrest)⟩
  · intro a ha
    rcases List.mem_append.mp ha with ha | ha
    · exact hready a ha
    · exact Or.inl (hwould hblocks a ha)
  · have hall : (front ++ blocks).filter Arrival.isReady = bytes.map Arrival.byte := by
      rw [List.filter_append, hfront, List.filter_eq_nil_iff.mpr hblocks, List.append_nil]
    rw [← bytesIn_filter, hall, bytesIn_map]

/-- The run of a line that is a command. -/
theorem run_command {v : Json} (hline : newline ∉ bytes)
    (hutf8 : IsUtf8 bytes) (hready : arrivals.filter Arrival.isReady =
      (bytes ++ [newline]).map Arrival.byte) (hblock : BlocksBetween arrivals)
    (hvalue : w.valueOf (bytes ++ [newline]) = some v) :
    ∃ t, arrivals.foldl (ClientThread.step w) (.fresh s) = t ∧ t.commands = [commandIn v] ∧
      t.responses = match (w.dispatch (.fresh s) (commandIn v)).value with
        | .ok rc => [(bytes ++ [newline], rc.code)]
        | .error _ => [] := by
  obtain ⟨front, rest, rfl, hopen, hfront, hrest⟩ := split_arrivals hready hline
  obtain ⟨t, ht, hframed, hrunning, hengine, hcommands, hresponses, hreceived⟩ :=
    framed_part (w := w) (s := s) hopen fun first hfirst ↦
      hblock first (hfirst.trans (List.prefix_append _ _))
  have hrest' : t.line ++ t.appended = bytes := by
    rw [← hframed.rest, hreceived, hfront]
    exact congrArg Prod.snd (splitLines_append hline [])
  have hend : IsUtf8 (t.appended ++ [newline]) := by
    refine (hframed.appended_utf8 ?_).append (by decide)
    rw [hreceived, hfront]
    exact hutf8
  let t₁ : ClientThread := { t with received := t.received ++ [newline] }
  have hdispatch : w.dispatch t₁ (commandIn v) = w.dispatch (.fresh s) (commandIn v) := by
    have hcount : t₁.commands = [] := hcommands
    have hstate : t₁.engine = s := hengine
    rw [Surroundings.dispatch, hcount, hstate]
    rfl
  have hnext : t.step w (.byte newline) =
      (t₁.perform w (bytes ++ [newline]) (commandIn v)).settled := by
    rw [ClientThread.step.eq_def, if_pos hrunning]
    change t.onByte w newline = _
    rw [onByte_newline hend, ← List.append_assoc, hrest', ClientThread.handleLine_of_some hvalue]
  rw [List.foldl_append, ht, List.foldl_cons, hnext, foldl_wouldBlock rfl hrest]
  refine ⟨_, rfl, ?_⟩
  cases hrc : (w.dispatch (.fresh s) (commandIn v)).value with
  | ok rc =>
    rw [ClientThread.perform_of_ok _ (hdispatch ▸ hrc)]
    exact ⟨by simp [ClientThread.settled, t₁, hcommands],
      by simp [ClientThread.settled, t₁, hresponses]⟩
  | error halt =>
    rw [ClientThread.perform_of_error _ (hdispatch ▸ hrc)]
    exact ⟨by simp [ClientThread.settled, t₁, hcommands],
      by simp [ClientThread.settled, t₁, hresponses]⟩

end Threads

section Commands

variable {J : SerdeJson} {w : Surroundings} {s : Engine} {arrivals : List Arrival}

/-- The payload of `pd` is a value. -/
theorem PdCommand.isValue (c : PdCommand) : IsValue c.message.2 := by
  cases c with
  | dial uri account => cases account <;> exact ⟨by simp, by simp [HaveValues, IsValue]⟩
  | answer => exact ⟨by simp, trivial⟩
  | hangup => exact ⟨by simp, trivial⟩
  | mute status => exact ⟨by simp, trivial, trivial⟩
  | hold status => exact ⟨by simp, trivial, trivial⟩

/-- It comes back as it is: its members are in the order of their keys. -/
theorem PdCommand.settled_message (J : SerdeJson) (c : PdCommand) :
    J.settled c.message.2 = c.message.2 := by
  have two (account uri : String) :
      byKey (.obj [("account_id", .str account), ("uri", .str uri)]) =
        .obj [("account_id", .str account), ("uri", .str uri)] := by
    have hle : "account_id" ≤ "uri" := by decide
    have hsorted : [("account_id", Json.str account), ("uri", .str uri)].Pairwise
        fun a b ↦ decide (a.1 ≤ b.1) = true := by simp [hle]
    simp only [byKey, byKeyMembers]
    rw [List.mergeSort_of_pairwise hsorted]
  have one (key : String) (value : Json) (h : byKey value = value) :
      byKey (.obj [(key, value)]) = .obj [(key, value)] := by
    simp only [byKey, byKeyMembers, h, List.mergeSort_singleton]
  have none : byKey (.obj []) = .obj [] := by
    simp only [byKey, byKeyMembers, List.mergeSort_nil]
  unfold SerdeJson.settled
  cases c with
  | dial uri account =>
    cases account with
    | some account =>
      rw [message, two]
      rfl
    | none =>
      rw [message, one _ _ rfl]
      rfl
  | answer =>
    rw [message, none]
    rfl
  | hangup =>
    rw [message, none]
    rfl
  | mute status =>
    rw [message, one _ _ rfl]
    rfl
  | hold status =>
    rw [message, one _ _ rfl]
    rfl

/-- It is not nested. -/
theorem PdCommand.depth_message (c : PdCommand) : depth c.message.2 = 1 := by
  cases c with
  | dial uri account => cases account <;> rfl
  | answer => rfl
  | hangup => rfl
  | mute status => rfl
  | hold status => rfl

/-- Whatever the command of `pd`, and in whatever pieces its line arrives, as long as reads block
between characters only: the engine dispatches that command and no other, and what `pd` reads of
the response is the code that the dispatch returned. -/
theorem pd_command_dispatched (hJ : J.Sound) (c : PdCommand) (hw : w.parseJson = J.fromStr)
    (hready : arrivals.filter Arrival.isReady = bytesOf (c.text J))
    (hblock : BlocksBetween arrivals) :
    ∃ t, arrivals.foldl (ClientThread.step w) (.fresh s) = t ∧ t.commands = [c.message] ∧
      t.responses.map (fun response ↦ (J.fromStr (responseText response.2)).map reportedRc) =
        match (w.dispatch (.fresh s) c.message).value with
        | .ok rc => [some rc.code]
        | .error _ => [] := by
  obtain ⟨bytes, hbytes, hutf8, htext⟩ :=
    utf8Bytes_lineText hJ (commandLine c.message.1 c.message.2)
  have hdepth : depth (commandLine c.message.1 c.message.2) ≤ nestingLimit := by
    rw [commandLine, depth_line, c.depth_message]
    decide
  have hvalue : w.valueOf (bytes ++ [newline]) =
      some (J.settled (commandLine c.message.1 c.message.2)) := by
    rw [Surroundings.valueOf, ← htext, utf8Bytes_eq, decodeUtf8_flatMap, hw,
      String.ofList_toList, Option.bind_some]
    exact fromStr_lineText hJ (isValue_line c.isValue) hdepth
  have hcommand : commandIn (J.settled (commandLine c.message.1 c.message.2)) = c.message := by
    rw [commandLine, commandIn_settled c.isValue, c.settled_message]
  have hready' : arrivals.filter Arrival.isReady = (bytes ++ [newline]).map Arrival.byte := by
    rw [hready, ← htext]
    rfl
  obtain ⟨t, ht, hcommands, hresponses⟩ := run_command (s := s) hbytes hutf8 hready' hblock hvalue
  rw [hcommand] at hcommands hresponses
  refine ⟨t, ht, hcommands, ?_⟩
  rw [hresponses]
  cases (w.dispatch (.fresh s) c.message).value with
  | ok rc => simp [reportedRc_responseText hJ]
  | error halt => rfl

/-- Surroundings in which every shim call returns 0, and the grammar reads lines. -/
def quietSurroundings : Surroundings where
  parseJson := (grammarSerde halfText).fromStr
  env _ := quietEnv
  others _ := id

/-- A number to dial, in one piece, as an instance. -/
theorem pd_command_dispatched_dial :
    ∃ t, (bytesOf ((PdCommand.dial "100" none).text (grammarSerde halfText))).foldl
        (ClientThread.step quietSurroundings) (.fresh Engine.initial) = t ∧
      t.commands = [(PdCommand.dial "100" none).message] ∧
      t.responses.map (fun response ↦
          ((grammarSerde halfText).fromStr (responseText response.2)).map reportedRc) =
        match (quietSurroundings.dispatch (.fresh Engine.initial)
          (PdCommand.dial "100" none).message).value with
        | .ok rc => [some rc.code]
        | .error _ => [] := by
  have hbyte : ∀ a ∈ bytesOf ((PdCommand.dial "100" none).text (grammarSerde halfText)),
      a.isReady = true := by
    intro a ha
    obtain ⟨b, -, rfl⟩ := List.mem_map.mp ha
    rfl
  refine pd_command_dispatched (grammarSerde_sound halfText) (.dial "100" none) rfl
    (List.filter_eq_self.mpr hbyte) fun first hfirst ↦ ?_
  have hblock := hbyte .wouldBlock (hfirst.subset (by simp))
  cases hblock

end Commands

end PacketDial.Ipc
