import PacketDial.Lib.Snapshots
import PacketDial.Ui.History

/-!
# The file of the call history

`AccountService` keeps the call history in memory and writes all of it to `call_history.json`
whenever an entry is added (`app_flutter/lib/core/account_service.dart:212–221`, `360–367`).
`_handleEvent` does not await the save (`app_flutter/lib/core/engine_channel.dart:590–607`), so
saves overlap. The text of the file stands for the JSON value that `jsonEncode` made it from.
-/

namespace PacketDial.Ui

open PacketDial.Core PacketDial.Lib

/-- An entry with its id (`call_history_schema.dart:1–25`). -/
structure HistoryEntry extends CallHistorySchema where
  id : String
  deriving DecidableEq

/-- An optional value as JSON. -/
def orNull {α : Type} (toJson : α → Json) : Option α → Json
  | some a => toJson a
  | none => .null

section Codec

-- `DateTime.toIso8601String` and `DateTime.parse`, which reads such texts back.
variable (toIso8601String : Int → String) (parse : String → Option Int)

/-- `CallHistorySchema.toJson` (`call_history_schema.dart:27–39`). -/
def HistoryEntry.toJson (entry : HistoryEntry) : Json :=
  .obj
    [("id", .str entry.id), ("accountId", .str entry.accountId), ("uri", .str entry.uri),
      ("direction", .str entry.direction), ("timestamp", .str (toIso8601String entry.timestamp)),
      ("durationSeconds", .ofI32 entry.durationSeconds), ("sipCode", orNull .ofI32 entry.sipCode),
      ("sipReason", orNull .str entry.sipReason), ("result", .str entry.result)]

/-- `CallHistorySchema.fromJson` (`call_history_schema.dart:41–53`). -/
def HistoryEntry.fromJson (json : Json) : Option HistoryEntry := do
  let id := (← asString (json.get "id")).getD ""
  let accountId := (← asString (json.get "accountId")).getD ""
  let uri := (← asString (json.get "uri")).getD ""
  let direction := (← asString (json.get "direction")).getD ""
  let timestamp ← parse (← (json.get "timestamp").asStr)
  let durationSeconds := (← asInt (json.get "durationSeconds")).getD 0
  let sipCode ← asInt (json.get "sipCode")
  let sipReason ← asString (json.get "sipReason")
  let result ← asString (json.get "result")
  return { id, accountId, uri, direction, timestamp, durationSeconds, sipCode, sipReason
           result := result.getD "" }

/-- What `_saveHistory` writes (`account_service.dart:212–221`). -/
def encodeHistory (history : List HistoryEntry) : Json :=
  .arr (history.map (HistoryEntry.toJson toIso8601String))

/-- What `loadHistory` reads (`account_service.dart:183–199`). -/
def decodeHistory (file : Json) : Option (List HistoryEntry) := do
  (← file.asArray).mapM (HistoryEntry.fromJson parse)

/-- `saveCallHistory` gives an entry without an id a new one (`account_service.dart:361–363`). -/
def withId (uuid : String) (entry : HistoryEntry) : HistoryEntry :=
  if entry.id = "" then { entry with id := uuid } else entry

end Codec

section Codec

variable {toIso8601String : Int → String} {parse : String → Option Int}

/-- Reading an integer that was written. -/
theorem asInt_ofI32 (n : Int) : asInt (.ofI32 n) = some (some n) := by
  unfold Json.ofI32
  split
  · next h => simp [asInt, Int.toNat_of_nonneg h]
  · rfl

/-- Reading an optional integer that was written. -/
theorem asInt_orNull (n : Option Int) : asInt (orNull .ofI32 n) = some n := by
  cases n with
  | none => rfl
  | some n => exact asInt_ofI32 n

/-- Reading a text that was written. -/
theorem asString_str (text : String) : asString (.str text) = some (some text) := rfl

/-- Reading an optional text that was written. -/
theorem asString_orNull (text : Option String) : asString (orNull .str text) = some text := by
  cases text <;> rfl

/-- Reading an entry that was written. -/
theorem fromJson_toJson (hparse : ∀ time, parse (toIso8601String time) = some time)
    (entry : HistoryEntry) :
    HistoryEntry.fromJson parse (entry.toJson toIso8601String) = some entry := by
  unfold HistoryEntry.fromJson HistoryEntry.toJson
  simp [Json.get, asString_str, Json.asStr, asInt_ofI32, asInt_orNull, asString_orNull, hparse]

/-- Reading a history that was written. -/
theorem decodeHistory_encodeHistory (hparse : ∀ time, parse (toIso8601String time) = some time)
    (history : List HistoryEntry) :
    decodeHistory parse (encodeHistory toIso8601String history) = some history := by
  unfold decodeHistory encodeHistory Json.asArray
  rw [Option.bind_eq_bind, Option.bind_some]
  induction history with
  | nil => rfl
  | cons entry history ih =>
    rw [List.map_cons, List.mapM_cons, fromJson_toJson hparse, ih]
    rfl

/-- Histories that are written alike are the same. -/
theorem encodeHistory_injective (hparse : ∀ time, parse (toIso8601String time) = some time) :
    Function.Injective (encodeHistory toIso8601String) := by
  intro history history' h
  have hdecode := congrArg (decodeHistory parse) h
  rw [decodeHistory_encodeHistory hparse, decodeHistory_encodeHistory hparse] at hdecode
  exact Option.some.inj hdecode

end Codec

section Saves

variable {toIso8601String : Int → String} {parse : String → Option Int}
  {history : List HistoryEntry} {acts : List (SaveAct HistoryEntry)}
  {t : Saver HistoryEntry Json}

/-- One step of `AccountService` and the file system. -/
def saveStep (toIso8601String : Int → String) :
    Saver HistoryEntry Json → SaveAct HistoryEntry → Option (Saver HistoryEntry Json) :=
  Saver.step (encodeHistory toIso8601String)

/-- The history has been loaded from its file. -/
def loaded (toIso8601String : Int → String) (history : List HistoryEntry) :
    Saver HistoryEntry Json :=
  Saver.initial (encodeHistory toIso8601String) history

/-- `saveCallHistory` up to its first `await`. -/
def saveCallHistory (uuid : String) (entry : HistoryEntry) : SaveAct HistoryEntry :=
  .save (withId uuid entry)

/-- For every order of saves, snapshots and completed writes, once all saves have completed the
file is read as the history in memory if and only if nothing was saved, or nothing was saved after
the snapshot of the save whose write completed last. -/
theorem history_file_iff (hparse : ∀ time, parse (toIso8601String time) = some time)
    (run : acts.foldlM (saveStep toIso8601String) (loaded toIso8601String history) = some t)
    (hdone : t.Settled) :
    decodeHistory parse t.file = some t.memory ↔ saved acts = [] ∨ LastIsFresh acts := by
  rw [← Saver.file_eq_iff (encodeHistory_injective hparse) run hdone]
  obtain ⟨snapshot, hfile⟩ := Saver.file_of_run run
  rw [hfile, decodeHistory_encodeHistory hparse, Option.some.injEq,
    (encodeHistory_injective hparse).eq_iff]

/-- The text of the time 0. -/
def epochText : String := "1970-01-01T00:00:00.000"

/-- `DateTime.toIso8601String` at the time 0, and some text for every other time. -/
def isoTime (time : Int) : String :=
  if time = 0 then epochText
  else String.ofList ((if time < 0 then '-' else '+') :: List.replicate time.natAbs 'T')

/-- The time that such a text stands for. -/
def parseTime (text : String) : Option Int :=
  if text = epochText then some 0
  else match text.toList with
    | '-' :: rest => some (-rest.length)
    | '+' :: rest => some rest.length
    | _ => none

/-- Such texts are read back. -/
theorem parseTime_isoTime (time : Int) : parseTime (isoTime time) = some time := by
  unfold isoTime
  by_cases hzero : time = 0
  · rw [if_pos hzero, hzero]
    rfl
  · rw [if_neg hzero]
    have hne (c : Char) (hc : c ≠ '1') (rest : List Char) :
        String.ofList (c :: rest) ≠ epochText := by
      intro h
      have hlist := congrArg String.toList h
      rw [String.toList_ofList] at hlist
      exact hc (List.cons.inj hlist).1
    by_cases hneg : time < 0
    · rw [if_pos hneg, parseTime, if_neg (hne _ (by decide) _), String.toList_ofList]
      simp only [List.length_replicate, Option.some.injEq]
      omega
    · rw [if_neg hneg, parseTime, if_neg (hne _ (by decide) _), String.toList_ofList]
      simp only [List.length_replicate, Option.some.injEq]
      omega

/-- The entry of a call, without an id. -/
def callEntry (uri : String) : HistoryEntry where
  id := ""
  accountId := "a"
  uri := uri
  direction := "outgoing"
  timestamp := 0
  durationSeconds := 0
  sipCode := none
  sipReason := none
  result := "Cancelled"

/-- Two calls, with the ids that their entries get. -/
def twoCalls : List HistoryEntry :=
  [withId "u" (callEntry "sip:1"), withId "v" (callEntry "sip:2")]

/-- Two saves that overlap: the second begins after the snapshot of the first, and the writes
complete in the order `first`, `second`. -/
def twoSaves (first second : Nat) : List (SaveAct HistoryEntry) :=
  [saveCallHistory "u" (callEntry "sip:1"), .encode 0, saveCallHistory "v" (callEntry "sip:2"),
    .encode 1, .complete first, .complete second]

/-- Two saves whose writes complete in their order, as an instance. -/
theorem history_file_iff_inOrder :
    ∃ t, (twoSaves 0 1).foldlM (saveStep isoTime)
        (loaded isoTime []) = some t ∧
      decodeHistory parseTime t.file = some t.memory := by
  have run : (twoSaves 0 1).foldlM (saveStep isoTime)
      (loaded isoTime []) = some ⟨twoCalls, encodeHistory isoTime twoCalls, [.done, .done]⟩ := rfl
  refine ⟨_, run, (history_file_iff parseTime_isoTime run (by simp [Saver.Settled])).mpr ?_⟩
  exact Or.inr ⟨1, [saveCallHistory "u" (callEntry "sip:1"), .encode 0,
    saveCallHistory "v" (callEntry "sip:2")], [.complete 0, .complete 1], rfl, rfl, rfl⟩

/-- Two saves whose writes complete in the other order: the file has lost an entry. -/
theorem later_entry_lost :
    ∃ t, (twoSaves 1 0).foldlM (saveStep isoTime)
        (loaded isoTime []) = some t ∧
      t.Settled ∧ t.memory = twoCalls ∧
      decodeHistory parseTime t.file = some [withId "u" (callEntry "sip:1")] ∧
      decodeHistory parseTime t.file ≠ some t.memory := by
  have run : (twoSaves 1 0).foldlM (saveStep isoTime)
      (loaded isoTime []) = some ⟨twoCalls,
        encodeHistory isoTime [withId "u" (callEntry "sip:1")], [.done, .done]⟩ := rfl
  have hread := decodeHistory_encodeHistory parseTime_isoTime [withId "u" (callEntry "sip:1")]
  refine ⟨_, run, by simp [Saver.Settled], rfl, hread, ?_⟩
  rw [hread]
  exact fun h ↦ by simpa [twoCalls] using congrArg List.length (Option.some.inj h)

end Saves

end PacketDial.Ui
