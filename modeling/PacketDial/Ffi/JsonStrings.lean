import Mathlib.Algebra.Group.Int.Defs
import PacketDial.Core.Serde
import PacketDial.Ffi.Marshalling
import PacketDial.Lib.Trim
import PacketDial.System.Machine

/-!
# Hand-written JSON

`startRecordingForCall` of `app_flutter/lib/ffi/engine.dart:409–414` writes its payload by hand,
with the path in it escaped by `_jsonString` (`engine.dart:518–520`). The engine reads the payload
and takes a call id of 32 bits and a trimmed path out of it (`core_rust/src/lib.rs:2377–2387`).
-/

namespace PacketDial.Ffi

open PacketDial.Core PacketDial.Lib PacketDial.System

/-- `String.replaceAll` of Dart, for a pattern of one character. -/
def replaceAll (pattern : Char) (replacement : List Char) (text : List Char) : List Char :=
  text.flatMap fun c ↦ if c = pattern then replacement else [c]

/-- `_jsonString` (`engine.dart:518–520`). -/
def jsonString (value : String) : String :=
  "\"" ++ String.ofList
    (replaceAll '"' ['\\', '"'] (replaceAll '\\' ['\\', '\\'] value.toList)) ++ "\""

/-- `String.codeUnits` of Dart. -/
def codeUnits (text : String) : List UInt16 := utf16Encode text.toList

/-- The payload of `startRecordingForCall` (`engine.dart:412`). -/
def recordingPayload (callId : Int) (filePath : String) : String :=
  "\x7b\"call_id\":" ++ toString callId ++ ",\"file_path\":" ++ jsonString filePath ++ "\x7d"

/-- `startRecordingForCall` (`engine.dart:409–414`). -/
def startRecordingForCall (callId : Int) (filePath : String) : Eng Int :=
  sendCommand (codeUnits "CallStartRecording") (codeUnits (recordingPayload callId filePath))

/-- The text of the payload that comes to the engine: a C string ends at the first NUL. -/
def received (payloadJson : String) : String :=
  String.ofList (payloadJson.toList.takeWhile (· ≠ '\x00'))

/-- What the engine reads of the payload. -/
def recordingFields (callId : Int) (filePath : String) : Json :=
  .obj [("call_id", .ofI32 callId), ("file_path", .str filePath)]

/-- The call and the path come to the engine as they are: with whatever parser of JSON, an engine
that is initialised does what it does to start this recording. -/
def Delivered (callId : Int) (filePath : String) : Prop :=
  ∃ id : UInt32, (id.toNat : Int) = callId ∧ ∀ (e : Env) (s : Engine),
    Conforming e.parseJson → s.initialized = true →
      (startRecordingForCall callId filePath).run e s =
        (EngineErrorCode.code <$> Core.startRecordingForCall id filePath).run e s

section Escapes

/-- The escape of one character. -/
def escapeChar (c : Char) : List Char :=
  if c = '\\' then ['\\', '\\'] else if c = '"' then ['\\', '"'] else [c]

/-- A text escaped character by character. -/
def escape (text : List Char) : List Char := text.flatMap escapeChar

/-- The two replacements together escape each character. -/
theorem replaceAll_replaceAll (text : List Char) :
    replaceAll '"' ['\\', '"'] (replaceAll '\\' ['\\', '\\'] text) = escape text := by
  unfold replaceAll escape
  rw [List.flatMap_assoc]
  congr 1
  funext c
  unfold escapeChar
  by_cases h : c = '\\'
  · subst h
    rfl
  · rw [if_neg h, if_neg h, List.flatMap_cons, List.flatMap_nil, List.append_nil]

/-- What is written for a text. -/
theorem toList_jsonString (value : String) :
    (jsonString value).toList = '"' :: (escape value.toList ++ ['"']) := by
  simp [jsonString, replaceAll_replaceAll]

/-- Escaping shortens no text. -/
theorem length_le_escape (text : List Char) : text.length ≤ (escape text).length := by
  induction text with
  | nil => exact Nat.zero_le _
  | cons c text ih =>
    have hc : 1 ≤ (escapeChar c).length := by
      unfold escapeChar
      split
      · decide
      · split <;> simp
    unfold escape at ih ⊢
    rw [List.flatMap_cons, List.length_append, List.length_cons]
    omega

/-- A character is read back from its escape, unless it is a control character. -/
theorem readChars_escapeChar (c : Char) (rest : List Char) (fuel : Nat) :
    readChars (fuel + 1) (escapeChar c ++ rest) =
      if isControl c then none
      else (readChars fuel rest).map fun read ↦ (c :: read.1, read.2) := by
  unfold escapeChar
  by_cases hslash : c = '\\'
  · subst hslash
    cases h : readChars fuel rest with
    | none => simp [readChars, readEscape, isControl, h]
    | some read => simp [readChars, readEscape, isControl, h]
  · rw [if_neg hslash]
    by_cases hquote : c = '"'
    · subst hquote
      cases h : readChars fuel rest with
      | none => simp [readChars, readEscape, isControl, h]
      | some read => simp [readChars, readEscape, isControl, h]
    · rw [if_neg hquote, List.singleton_append, readChars, if_neg hquote, if_neg hslash]
      split
      · rfl
      · cases h : readChars fuel rest with
        | none => rfl
        | some read => rfl

/-- An escaped text is read back, unless it has a control character. -/
theorem readChars_escape {text : List Char} {fuel : Nat} (h : text.length < fuel)
    (rest : List Char) : readChars fuel (escape text ++ '"' :: rest) =
      if text.any isControl then none else some (text, rest) := by
  induction text generalizing fuel with
  | nil =>
    cases fuel with
    | zero => exact absurd h (Nat.not_lt_zero _)
    | succ fuel => rfl
  | cons c text ih =>
    cases fuel with
    | zero => exact absurd h (Nat.not_lt_zero _)
    | succ fuel =>
      have hlen : text.length < fuel := by simpa using h
      have hrest := ih hlen
      rw [escape, List.flatMap_cons, List.append_assoc, readChars_escapeChar]
      rw [escape] at hrest
      rw [hrest, List.any_cons]
      cases isControl c with
      | true => rfl
      | false => cases text.any isControl <;> rfl

/-- An escaped text without a closing quote is not read. -/
theorem readChars_escape_open (text : List Char) (fuel : Nat) :
    readChars fuel (escape text) = none := by
  induction text generalizing fuel with
  | nil => cases fuel <;> rfl
  | cons c text ih =>
    cases fuel with
    | zero => rfl
    | succ fuel =>
      have hrest := ih fuel
      rw [escape, List.flatMap_cons, readChars_escapeChar]
      rw [escape] at hrest
      rw [hrest]
      split <;> rfl

/-- A string is read back from its escape and the closing quote. -/
theorem readString_escape (text rest : List Char) :
    readString (escape text ++ '"' :: rest) =
      if text.any isControl then none else some (text, rest) := by
  apply readChars_escape
  have hlen := length_le_escape text
  rw [List.length_append, List.length_cons]
  omega

end Escapes

section Numbers

/-- An integer of 64 bits that Dart writes is read as that integer. -/
theorem readNumber_toString {callId : Int} (hlow : -2 ^ 63 ≤ callId) (hhigh : callId < 2 ^ 63)
    (rest : List Char) : (readNumber ((toString callId).toList ++ ',' :: rest)).map
      (fun read ↦ (Json.num read.1, read.2)) = some (.ofI32 callId, ',' :: rest) := by
  have hcomma (rest : List Char) : EndsNumber (',' :: rest) := endsNumber_cons (by decide)
  rw [toList_toString, Json.ofI32]
  by_cases hneg : 0 ≤ callId
  · have hread := readUnsigned_toDigits false callId.toNat (hcomma rest)
    have hnumber : integerNumber false callId.toNat = .posInt callId.toNat := by
      unfold integerNumber
      rw [if_neg Bool.false_ne_true, if_pos (by omega)]
    rw [if_pos hneg, if_pos hneg, readNumber_toDigits, hread, hnumber, Option.map_some]
  · have hread := readUnsigned_toDigits true (-callId).toNat (hcomma rest)
    have hnumber : integerNumber true (-callId).toNat = .negInt callId := by
      unfold integerNumber
      rw [if_pos rfl, if_neg (by omega), Int.toNat_of_nonneg (by omega), Int.neg_neg]
    rw [if_neg hneg, if_neg hneg, List.cons_append, readNumber, hread, hnumber, Option.map_some]

/-- The first character of an integer begins no other value. -/
theorem head_toString (callId : Int) : ∃ d ds, (toString callId).toList = d :: ds ∧
    (d = '-' ∨ d.isDigit = true) := by
  rw [toList_toString]
  split
  · obtain ⟨d, ds, hds⟩ := List.exists_cons_of_ne_nil (Nat.toDigits_ne_nil (n := callId.toNat)
      (b := 10))
    exact ⟨d, ds, hds, .inr (Nat.isDigit_of_mem_toDigits (b := 10) (n := callId.toNat)
      (by decide) (by decide) (hds ▸ List.mem_cons_self))⟩
  · exact ⟨_, _, rfl, .inl rfl⟩

/-- An integer of 64 bits that Dart writes is a JSON value. -/
theorem readValue_toString {callId : Int} (hlow : -2 ^ 63 ≤ callId) (hhigh : callId < 2 ^ 63)
    (rest : List Char) (fuel : Nat) :
    readValue (fuel + 1) ((toString callId).toList ++ ',' :: rest) =
      some (.ofI32 callId, ',' :: rest) := by
  have hread := readNumber_toString hlow hhigh rest
  obtain ⟨d, ds, hds, hd⟩ := head_toString callId
  rw [hds] at hread ⊢
  have hother (c : Char) (hc : c ≠ '-') (hdigit : c.isDigit = false) : d ≠ c := by
    rintro rfl
    rcases hd with rfl | hd
    · exact hc rfl
    · rw [hdigit] at hd
      cases hd
  have hspace : isJsonSpace d = false := by
    simp [isJsonSpace, hother]
  rw [List.cons_append] at hread ⊢
  rw [readValue, skipSpace, List.dropWhile_cons_of_neg (by simp [hspace])]
  simp only
  rw [if_neg (hother _ (by decide) (by decide)), if_neg (hother _ (by decide) (by decide)),
    if_neg (hother _ (by decide) (by decide)), if_neg (hother _ (by decide) (by decide)),
    if_neg (hother _ (by decide) (by decide)), if_neg (hother _ (by decide) (by decide)), hread]

end Numbers

section Payload

variable {callId : Int}

/-- The payload up to the path, with some text behind it. -/
def payloadWith (callId : Int) (tail : List Char) : List Char :=
  "\x7b\"call_id\":".toList ++
    ((toString callId).toList ++ (",\"file_path\":".toList ++ '"' :: tail))

/-- What is written for a call and a path. -/
theorem toList_recordingPayload (callId : Int) (filePath : String) :
    (recordingPayload callId filePath).toList =
      payloadWith callId (escape filePath.toList ++ ['"', '\x7d']) := by
  unfold recordingPayload payloadWith
  rw [String.toList_append, String.toList_append, String.toList_append, String.toList_append,
    toList_jsonString]
  simp only [List.append_assoc, List.cons_append, List.nil_append]
  rfl

/-- A key of the payload is read up to its colon. -/
theorem readString_key (key : List Char) (hplain : escape key = key)
    (hcontrol : key.any isControl = false) (rest : List Char) :
    readString (key ++ '"' :: rest) = some (key, rest) := by
  have h := readString_escape key rest
  rwa [hplain, hcontrol, if_neg Bool.false_ne_true] at h

/-- The payload is read as the call, and then the path. -/
theorem readValue_payloadWith (hlow : -2 ^ 63 ≤ callId) (hhigh : callId < 2 ^ 63)
    (tail : List Char) (fuel : Nat) :
    readValue (fuel + 4) (payloadWith callId tail) =
      readMembers (fuel + 2) [("call_id", .ofI32 callId)]
        ('"' :: ("file_path".toList ++ '"' :: ':' :: '"' :: tail)) := by
  have hread := readValue_toString hlow hhigh
    ('"' :: ("file_path".toList ++ '"' :: ':' :: '"' :: tail)) (fuel + 1)
  have hkey := readString_key "call_id".toList (by decide) (by decide)
    (':' :: ((toString callId).toList ++
      ',' :: '"' :: ("file_path".toList ++ '"' :: ':' :: '"' :: tail)))
  exact (readValue_brace (fuel + 3) _).trans (readMembers_comma hkey hread)

/-- The path of a payload is read to its end. -/
theorem readMembers_path {path rest : List Char} {tail : List Char}
    (h : readString tail = some (path, '\x7d' :: rest)) (fuel : Nat) :
    readMembers (fuel + 2) [("call_id", .ofI32 callId)]
        ('"' :: ("file_path".toList ++ '"' :: ':' :: '"' :: tail)) =
      some (recordingFields callId (String.ofList path), rest) := by
  have hkey := readString_key "file_path".toList (by decide) (by decide)
    (':' :: '"' :: tail)
  have hvalue : readValue (fuel + 1) ('"' :: tail) =
      some (.str (String.ofList path), '\x7d' :: rest) := by
    rw [readValue_quote, h]
    rfl
  rw [readMembers_brace hkey hvalue]
  rfl

/-- A path that is not read leaves the payload without a value. -/
theorem readMembers_no_path {tail : List Char} {members : List (String × Json)}
    (h : readString tail = none) (fuel : Nat) :
    readMembers (fuel + 2) members
        ('"' :: ("file_path".toList ++ '"' :: ':' :: '"' :: tail)) = none := by
  have hkey := readString_key "file_path".toList (by decide) (by decide)
    (':' :: '"' :: tail)
  have hvalue : readValue (fuel + 1) ('"' :: tail) = none := by
    rw [readValue_quote, h]
    rfl
  exact readMembers_none hkey hvalue

/-- Characters other than NUL pass. -/
theorem takeWhile_notMem {text : List Char} (h : '\x00' ∉ text) (rest : List Char) :
    (text ++ rest).takeWhile (· ≠ '\x00') = text ++ rest.takeWhile (· ≠ '\x00') :=
  List.takeWhile_append_of_pos fun _ hc ↦ decide_eq_true fun heq ↦ h (heq ▸ hc)

/-- A NUL can only be in the path. -/
theorem takeWhile_payloadWith (callId : Int) (tail : List Char) :
    (payloadWith callId tail).takeWhile (· ≠ '\x00') =
      payloadWith callId (tail.takeWhile (· ≠ '\x00')) := by
  have hnumber : '\x00' ∉ (toString callId).toList := by
    rw [toList_toString]
    have hdigits (n : Nat) : '\x00' ∉ Nat.toDigits 10 n := fun h ↦
      absurd (Nat.isDigit_of_mem_toDigits (by decide) (by decide) h) (by decide)
    split
    · exact hdigits _
    · rw [List.mem_cons, not_or]
      exact ⟨by decide, hdigits _⟩
  unfold payloadWith
  rw [takeWhile_notMem (by decide), takeWhile_notMem hnumber, takeWhile_notMem (by decide),
    List.takeWhile_cons_of_pos (by decide)]

/-- A NUL of an escaped text is one of the text. -/
theorem nul_mem_escape {text : List Char} : '\x00' ∈ escape text ↔ '\x00' ∈ text := by
  have hchar (c : Char) : '\x00' ∈ escapeChar c ↔ '\x00' = c := by
    unfold escapeChar
    split
    · next h => subst h; decide
    · split
      · next h => subst h; decide
      · exact List.mem_singleton
  unfold escape
  simp only [List.mem_flatMap, hchar, exists_eq_right']

/-- A payload is read with fuel to spare. -/
theorem readJson_payloadWith (callId : Int) (tail : List Char) : ∃ fuel,
    readJson (String.ofList (payloadWith callId tail)) =
      (readValue (fuel + 4) (payloadWith callId tail)).bind fun read ↦
        if skipSpace read.2 = [] then some read.1 else none := by
  have hlen : 3 ≤ (payloadWith callId tail).length := by
    unfold payloadWith
    rw [List.length_append]
    exact Nat.le_add_right_of_le (by decide)
  refine ⟨(payloadWith callId tail).length - 3, ?_⟩
  have hfuel : (payloadWith callId tail).length - 3 + 4 = (payloadWith callId tail).length + 1 := by
    omega
  unfold readJson
  rw [hfuel, String.toList_ofList]
  rfl

/-- The payload that comes to the engine is read as the call and the path, unless the path has a
control character. -/
theorem readJson_received (hlow : -2 ^ 63 ≤ callId) (hhigh : callId < 2 ^ 63) (filePath : String) :
    readJson (received (recordingPayload callId filePath)) =
      if filePath.toList.any isControl then none else some (recordingFields callId filePath) := by
  rw [received, toList_recordingPayload, takeWhile_payloadWith]
  by_cases hnul : '\x00' ∈ filePath.toList
  · -- The C string ends within the path, before the closing quote.
    obtain ⟨front, back, hpath, hfront⟩ := List.eq_append_cons_of_mem hnul
    have htail : (escape filePath.toList ++ ['"', '\x7d']).takeWhile (· ≠ '\x00') =
        escape front := by
      have hescape : escape filePath.toList ++ ['"', '\x7d'] =
          escape front ++ ('\x00' :: (escape back ++ ['"', '\x7d'])) := by
        rw [hpath, escape, escape, escape, List.flatMap_append, List.flatMap_cons,
          List.append_assoc, List.append_assoc]
        rfl
      rw [hescape, takeWhile_notMem (fun h ↦ hfront (nul_mem_escape.mp h)),
        List.takeWhile_cons_of_neg (by decide), List.append_nil]
    have hcontrol : filePath.toList.any isControl = true :=
      List.any_eq_true.mpr ⟨_, hnul, rfl⟩
    rw [htail]
    obtain ⟨fuel, hread⟩ := readJson_payloadWith callId (escape front)
    rw [hread, readValue_payloadWith hlow hhigh,
      readMembers_no_path (readChars_escape_open _ _), hcontrol]
    rfl
  · have htail : (escape filePath.toList ++ ['"', '\x7d']).takeWhile (· ≠ '\x00') =
        escape filePath.toList ++ ['"', '\x7d'] := by
      rw [takeWhile_notMem (fun h ↦ hnul (nul_mem_escape.mp h))]
      rfl
    rw [htail]
    obtain ⟨fuel, hread⟩ := readJson_payloadWith callId (escape filePath.toList ++ ['"', '\x7d'])
    have hstring := readString_escape filePath.toList ['\x7d']
    rw [hread, readValue_payloadWith hlow hhigh]
    cases hcontrol : filePath.toList.any isControl with
    | true =>
      rw [hcontrol, if_pos rfl] at hstring
      rw [readMembers_no_path hstring]
      rfl
    | false =>
      rw [hcontrol, if_neg Bool.false_ne_true] at hstring
      rw [readMembers_path hstring, String.ofList_toList]
      rfl

end Payload

/-- What `_jsonString` makes of a text is read as that text, unless it has a control character. -/
theorem readJson_jsonString (text : String) :
    readJson (jsonString text) =
      if text.toList.any isControl then none else some (.str text) := by
  have hstring := readString_escape text.toList []
  unfold readJson
  rw [toList_jsonString, readValue_quote, hstring]
  cases text.toList.any isControl with
  | true => rfl
  | false =>
    rw [if_neg Bool.false_ne_true, if_neg Bool.false_ne_true, Option.map_some,
      String.ofList_toList]
    rfl

section Delivery

variable {e : Env} {s : Engine} {callId : Int} {filePath : String}

/-- The command is read as it is, and its payload as what precedes a NUL. -/
theorem startRecordingForCall_eq (callId : Int) (filePath : String) :
    startRecordingForCall callId filePath =
      engineSendCommand (.text "CallStartRecording")
        (.text (received (recordingPayload callId filePath))) := by
  unfold startRecordingForCall sendCommand codeUnits
  rw [cStr_utf16Encode, cStr_utf16Encode]
  rfl

/-- An initialised engine dispatches the payload that it reads. -/
theorem run_of_received (hinit : s.initialized = true) {p : Json}
    (h : e.parseJson (received (recordingPayload callId filePath)) = some p) :
    (startRecordingForCall callId filePath).run e s =
      (dispatchCode "CallStartRecording" p).run e s := by
  rw [startRecordingForCall_eq]
  generalize received _ = payload at h ⊢
  simp [engineSendCommand, withText, CPtr.toStr, whenInitialized, hinit, h]

/-- A payload that is not read is answered with `InvalidJson`, and nothing else happens. -/
theorem run_of_not_received (hinit : s.initialized = true)
    (h : e.parseJson (received (recordingPayload callId filePath)) = none) :
    (startRecordingForCall callId filePath).run e s =
      ⟨EngineErrorCode.invalidJson.code, s, []⟩ := by
  rw [startRecordingForCall_eq]
  generalize received _ = payload at h ⊢
  simp [engineSendCommand, withText, CPtr.toStr, whenInitialized, hinit, h]

/-- `cmd_call_start_recording` takes the call, and the path without white space around it. -/
theorem cmdCallStartRecording_fields (id : UInt32) (filePath : String) :
    cmdCallStartRecording (recordingFields id.toNat filePath) =
      if trim filePath = "" then return .invalidJson
      else Core.startRecordingForCall id (trim filePath) := by
  have hid : callIdField (recordingFields id.toNat filePath) = some id := by
    apply callIdField_of_get
    change Json.ofI32 (id.toNat : Int) = Json.ofU32 id
    rw [Json.ofI32, if_pos (Int.natCast_nonneg _), Int.toNat_natCast]
    rfl
  have hpath : ((recordingFields id.toNat filePath).get "file_path").asStr = some filePath := rfl
  rw [cmdCallStartRecording, hid, hpath]

/-- The command that is dispatched. -/
theorem dispatchCode_callStartRecording (p : Json) :
    dispatchCode "CallStartRecording" p = EngineErrorCode.code <$> cmdCallStartRecording p := by
  change caught <$> Except.ok <$> cmdCallStartRecording p = _
  rw [Functor.map_map]
  rfl

/-- An initialised engine that reads the fields runs the command on them. -/
theorem run_of_fields (hinit : s.initialized = true) {id : UInt32}
    (h : e.parseJson (received (recordingPayload id.toNat filePath)) =
      some (recordingFields id.toNat filePath)) :
    (startRecordingForCall id.toNat filePath).run e s =
      (EngineErrorCode.code <$> if trim filePath = "" then return .invalidJson
        else Core.startRecordingForCall id (trim filePath)).run e s := by
  rw [run_of_received hinit h, dispatchCode_callStartRecording, cmdCallStartRecording_fields]

/-- What it answers. -/
theorem value_of_fields (hinit : s.initialized = true) {id : UInt32}
    (h : e.parseJson (received (recordingPayload id.toNat filePath)) =
      some (recordingFields id.toNat filePath)) :
    ((startRecordingForCall id.toNat filePath).run e s).value =
      EngineErrorCode.code (if trim filePath = "" then .invalidJson
        else ((Core.startRecordingForCall id (trim filePath)).run e s).value) := by
  rw [run_of_fields hinit h, Traced.run_map]
  split <;> rfl

/-- A parser of JSON reads the fields of a path without control characters. -/
theorem parse_received {parse : String → Option Json} (hparse : Conforming parse)
    (hlow : -2 ^ 63 ≤ callId) (hhigh : callId < 2 ^ 63)
    (hplain : filePath.toList.any isControl = false) :
    parse (received (recordingPayload callId filePath)) =
      some (recordingFields callId filePath) := by
  have hread := readJson_received hlow hhigh filePath
  rw [hplain, if_neg Bool.false_ne_true] at hread
  have hexact : Exact (recordingFields callId filePath) := by
    refine ⟨?_, trivial, trivial⟩
    unfold Json.ofI32
    split <;> trivial
  have hdepth : depth (recordingFields callId filePath) ≤ nestingLimit := by
    have hzero : depth (.ofI32 callId) = 0 := by
      unfold Json.ofI32
      split <;> rfl
    simp [recordingFields, depth, depthMembers, hzero, nestingLimit]
  have hsorted : byKey (recordingFields callId filePath) = recordingFields callId filePath := by
    have hle : "call_id" ≤ "file_path" := by decide
    have hnumber : byKey (.ofI32 callId) = .ofI32 callId := by
      unfold Json.ofI32
      split <;> rfl
    have hpair : [("call_id", Json.ofI32 callId), ("file_path", .str filePath)].Pairwise
        fun a b ↦ decide (a.1 ≤ b.1) = true := by simp [hle]
    simp only [recordingFields, byKey, byKeyMembers, hnumber]
    rw [List.mergeSort_of_pairwise hpair]
  rw [hparse.reads _ _ hread hexact hdepth, hsorted]

/-- An engine without calls. -/
def idleEngine : Engine := { Engine.initial with initialized := true }

/-- A call in progress. -/
def inProgress (id : UInt32) : Call where
  id := id
  accountId := ""
  uri := ""
  direction := .outgoing
  state := .inCall
  muted := false
  onHold := false
  accumulatedActiveSecs := 0
  lastResumedAt := none
  pjsipCallId := some 0
  recordingPath := none
  recordingStartedAtMs := none

/-- An engine with this call. -/
def busyEngine (id : UInt32) : Engine :=
  { idleEngine with calls := AList.insert id (inProgress id) ∅ }

/-- A recorder that takes one path and no other. -/
def recorderRc (filePath : String) : ShimCall → Int
  | .pdCallStartRecording _ path => if path = filePath then 0 else 1
  | _ => 0

/-- Surroundings with this recorder. -/
def recorderFor (filePath : String) : Env :=
  { quietEnv with parseJson := fun text ↦ (readJson text).map byKey, rc := recorderRc filePath }

/-- They read JSON. -/
theorem parseJson_recorderFor (filePath text : String) :
    (recorderFor filePath).parseJson text = (readJson text).map byKey := rfl

theorem conforming_recorderFor (filePath : String) : Conforming (recorderFor filePath).parseJson :=
  conforming_grammar

/-- Without calls no recording is started. -/
theorem value_idle (id : UInt32) (filePath : String) (e : Env) :
    ((Core.startRecordingForCall id filePath).run e idleEngine).value = .notFound := by
  simp [Core.startRecordingForCall, snapshotCall, run_withLock, idleEngine, Engine.initial]

/-- What is answered for a call in progress shows which path the recorder is given. -/
theorem value_busy (id : UInt32) {path : String} (hnul : '\x00' ∉ path.toList)
    (filePath : String) :
    ((Core.startRecordingForCall id path).run (recorderFor filePath) (busyEngine id)).value =
      if path = filePath then .ok else .internalError := by
  have hpath : cString path = some path := if_neg hnul
  have hcall : (busyEngine id).calls.lookup id = some (inProgress id) := AList.lookup_insert _
  have hidle : (recorderFor filePath).rc (.pdCallIsRecording 0) = 0 := rfl
  have hstart : (recorderFor filePath).rc (.pdCallStartRecording 0 path) =
      if path = filePath then 0 else 1 := rfl
  by_cases hsame : path = filePath
  · rw [if_pos hsame] at hstart ⊢
    simp [Core.startRecordingForCall, snapshotCall, run_withLock, hcall, inProgress, hpath, shim,
      beginRecording, hidle, hstart]
  · rw [if_neg hsame] at hstart ⊢
    simp [Core.startRecordingForCall, snapshotCall, run_withLock, hcall, inProgress, hpath, shim,
      beginRecording, hidle, hstart]

/-- What a call and a path that are delivered are answered with. -/
theorem Delivered.value {id : UInt32} (h : Delivered id.toNat filePath) (other : String)
    (hinit : s.initialized = true) :
    ((startRecordingForCall id.toNat filePath).run (recorderFor other) s).value =
      ((Core.startRecordingForCall id filePath).run (recorderFor other) s).value.code := by
  obtain ⟨id', hid, hrun⟩ := h
  obtain rfl : id' = id := UInt32.toNat_inj.mp (Int.natCast_inj.mp hid)
  rw [hrun _ s (conforming_recorderFor other) hinit, Traced.run_map]

/-- A path that is delivered has no control characters. -/
theorem Delivered.plain {id : UInt32} (h : Delivered id.toNat filePath) :
    filePath.toList.any isControl = false := by
  have hlow : -2 ^ 63 ≤ (id.toNat : Int) := by omega
  have hhigh : (id.toNat : Int) < 2 ^ 63 := by
    have hlt := id.toNat_lt
    omega
  have hvalue := h.value filePath (s := idleEngine) rfl
  rw [value_idle] at hvalue
  rw [← Bool.not_eq_true]
  intro hcontrol
  have hnone : (recorderFor filePath).parseJson (received (recordingPayload id.toNat filePath)) =
      none := by
    rw [parseJson_recorderFor, readJson_received hlow hhigh, hcontrol, if_pos rfl, Option.map_none]
  rw [run_of_not_received rfl hnone] at hvalue
  exact absurd hvalue (by decide)

/-- Such a path is not changed where it is delivered. -/
theorem Delivered.trimmed {id : UInt32} (h : Delivered id.toNat filePath) :
    trim filePath = filePath ∧ filePath ≠ "" := by
  have hlow : -2 ^ 63 ≤ (id.toNat : Int) := by omega
  have hhigh : (id.toNat : Int) < 2 ^ 63 := by
    have hlt := id.toNat_lt
    omega
  have hfields : (recorderFor filePath).parseJson
      (received (recordingPayload id.toNat filePath)) = some (recordingFields id.toNat filePath) :=
    parse_received (conforming_recorderFor filePath) hlow hhigh h.plain
  have hblank : trim filePath ≠ "" := by
    intro hblank
    have hvalue := h.value filePath (s := idleEngine) rfl
    rw [value_idle, value_of_fields rfl hfields, if_pos hblank] at hvalue
    exact absurd hvalue (by decide)
  have hnul : '\x00' ∉ filePath.toList := by
    intro hmem
    have hplain := List.any_eq_false.mp h.plain _ hmem
    exact hplain rfl
  have htrimnul : '\x00' ∉ (trim filePath).toList := by
    rw [trim, String.toList_ofList]
    exact fun hmem ↦ hnul ((mem_strip (by decide)).mp hmem)
  have hsame : trim filePath = filePath := by
    have hvalue := h.value filePath (s := busyEngine id) rfl
    rw [value_busy id hnul, if_pos rfl, value_of_fields rfl hfields, if_neg hblank,
      value_busy id htrimnul] at hvalue
    by_contra hother
    rw [if_neg hother] at hvalue
    exact absurd hvalue (by decide)
  exact ⟨hsame, hsame ▸ hblank⟩

/-- A call and a path are delivered just if the path has no control character, no white space around
it and is not empty, and the call id is one of 32 bits. -/
theorem delivered_iff (callId : Int) (filePath : String) :
    Delivered callId filePath ↔
      filePath.toList.any isControl = false ∧ (0 ≤ callId ∧ callId < 2 ^ 32) ∧
        trim filePath = filePath ∧ filePath ≠ "" := by
  constructor
  · intro h
    obtain ⟨id, rfl, -⟩ := id h
    have hlt := id.toNat_lt
    exact ⟨h.plain, ⟨by omega, by omega⟩, h.trimmed⟩
  · rintro ⟨hplain, ⟨hlow, hhigh⟩, htrim, hne⟩
    have hid : ((UInt32.ofNat callId.toNat).toNat : Int) = callId := by
      have hlt : callId.toNat < UInt32.size := by
        rw [UInt32.size]
        omega
      rw [UInt32.toNat_ofNat_of_lt' hlt]
      omega
    refine ⟨UInt32.ofNat callId.toNat, hid, fun e s hparse hinit ↦ ?_⟩
    have hfields : e.parseJson (received (recordingPayload callId filePath)) =
        some (recordingFields callId filePath) :=
      parse_received hparse (by omega) (by omega) hplain
    rw [← hid] at hfields
    have hrun := run_of_fields hinit hfields
    rwa [htrim, if_neg hne, hid] at hrun

/-- Every parser of JSON reads what `_jsonString` makes of a text as that text, just if it has no
control character. -/
theorem conforming_jsonString_iff (text : String) :
    (∀ parse, Conforming parse → parse (jsonString text) = some (.str text)) ↔
      text.toList.any isControl = false := by
  have hread := readJson_jsonString text
  constructor
  · intro h
    have hgrammar := h _ conforming_grammar
    rw [hread] at hgrammar
    rw [← Bool.not_eq_true]
    intro hcontrol
    rw [if_pos hcontrol] at hgrammar
    cases hgrammar
  · intro hplain parse hparse
    rw [hplain, if_neg Bool.false_ne_true] at hread
    exact hparse.reads _ _ hread trivial (Nat.zero_le _)

end Delivery

/-- For every text and call id: every parser of JSON reads what `_jsonString` makes of the text as
that text, if and only if it has no control character; and `startRecordingForCall` delivers the
call with the text as its path, if and only if moreover the call id is one of 32 bits and the text
is trimmed and not empty. -/
theorem json_string_iff (text : String) (callId : Int) :
    ((∀ parse, Conforming parse → parse (jsonString text) = some (.str text)) ↔
      ∀ c ∈ text.toList, isControl c = false) ∧
    (Delivered callId text ↔
      (∀ c ∈ text.toList, isControl c = false) ∧ (0 ≤ callId ∧ callId < 2 ^ 32) ∧
        trim text = text ∧ text ≠ "") := by
  have hany : (∀ c ∈ text.toList, isControl c = false) ↔ text.toList.any isControl = false := by
    simp
  rw [hany]
  exact ⟨conforming_jsonString_iff text, delivered_iff callId text⟩

/-- A line break in a path is not escaped: the engine refuses the payload. -/
theorem line_break_not_read :
    ¬ (∀ parse, Conforming parse →
        parse (jsonString "/tmp/a\nb.wav") = some (.str "/tmp/a\nb.wav")) ∧
      ¬ Delivered 1 "/tmp/a\nb.wav" ∧
      ((startRecordingForCall 1 "/tmp/a\nb.wav").run (recorderFor "/tmp/a\nb.wav")
        idleEngine).value = EngineErrorCode.invalidJson.code := by
  have hcontrol : "/tmp/a\nb.wav".toList.any isControl = true := by decide
  have hlow : -2 ^ 63 ≤ (1 : Int) := by decide
  have hhigh : (1 : Int) < 2 ^ 63 := by decide
  have hnone : (recorderFor "/tmp/a\nb.wav").parseJson
      (received (recordingPayload 1 "/tmp/a\nb.wav")) = none := by
    rw [parseJson_recorderFor, readJson_received hlow hhigh, hcontrol, if_pos rfl, Option.map_none]
  refine ⟨?_, ?_, ?_⟩
  · rw [conforming_jsonString_iff, hcontrol]
    exact Bool.noConfusion
  · rw [delivered_iff, hcontrol]
    exact fun h ↦ Bool.noConfusion h.1
  · rw [run_of_not_received rfl hnone]

end PacketDial.Ffi
