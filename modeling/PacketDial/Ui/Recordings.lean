import Mathlib.Data.Bool.AllAny
import PacketDial.Lib.Calendar
import PacketDial.Lib.Decimal
import PacketDial.Lib.Patterns
import PacketDial.Lib.Utf16
import PacketDial.Ui.Recording
import PacketDial.Ui.Text

/-!
# The recordings on disk

`RecordingService` names the file of a recording after its call and the time
(`app_flutter/lib/core/recording_service.dart:126–138`, `449–457`) and finds the session of a file
by the call id in its name (`372–425`); `RecordingItem` reads the time out of the name again
(`app_flutter/lib/models/recording_item.dart`). `package:path` is a parameter.
-/

namespace PacketDial.Ui

open PacketDial.Core PacketDial.Lib

/-- `package:path`: the last part of a path, and parts put together. -/
structure PathContext where
  basename : String → String
  join : List String → String

/-- The characters of plain file names. -/
def isPlain (c : Char) : Bool := c.isAlphanum || c == '-' || c == '_' || c == '.'

/-- What is used of `package:path`: a plain name is the last part of the path it is put behind. -/
structure PathContext.Sound (P : PathContext) : Prop where
  basename_join : ∀ (dir name : String), name ≠ "" → (∀ c ∈ name.toList, isPlain c = true) →
    P.basename (P.join [dir, name]) = name

/-- The local time zone, in seconds: its offset at a moment, and the one that a local clock reading
is taken with. -/
structure LocalZone where
  offsetAt : Int → Int
  offsetOf : Int → Int

/-- `_formatCompactTimestamp` (`recording_service.dart:449–457`). -/
def formatCompactTimestamp (timestamp : ClockReading) : List Char :=
  padded 4 timestamp.year ++ padded 2 timestamp.month ++ padded 2 timestamp.day ++
    '_' :: padded 2 timestamp.hour ++ padded 2 timestamp.minute ++ padded 2 timestamp.second

/-- The name of a recording (`recording_service.dart:135–136`). -/
def recordingName (callId : Int) (timestamp : ClockReading) : List Char :=
  (toString callId).toList ++ '_' :: formatCompactTimestamp timestamp ++ ".wav".toList

/-- `generateRecordingPath` at a moment in microseconds (`recording_service.dart:126–138`). -/
def generateRecordingPath (P : PathContext) (rootDir : String) (zone : LocalZone)
    (callId timestamp : Int) : String :=
  let seconds := timestamp / 1000000
  let here := readingOf (seconds + zone.offsetAt seconds)
  let yearDir := String.ofList (padded 4 here.year)
  let monthDir := String.ofList (padded 2 here.month)
  P.join [P.join [rootDir, yearDir, monthDir],
    String.ofList (recordingName callId (readingOf seconds))]

/-- `RegExp(r'(\d+)_(\d{8}_\d{6})\.wav')`. -/
def recordingNamePattern : List (Piece Char) :=
  [.many Char.isDigit, .only '_', .exactly 8 Char.isDigit, .only '_', .exactly 6 Char.isDigit,
    .only '.', .only 'w', .only 'a', .only 'v']

/-- The two groups of its first match. -/
def matchRecordingName (fileName : List Char) : Option (List Char × List Char) :=
  (search recordingNamePattern fileName).map fun found ↦ (group 0 1 found.2.1, group 2 3 found.2.1)

/-- `int.parse` of decimal digits, which throws beyond 64 bits. -/
def intParse (digits : List Char) : Option Int :=
  let n := Nat.ofDigitChars 10 digits 0
  if n < 2 ^ 63 then some n else none

/-- A file of the folder of the recordings: whether it is still there, its length and the time of
its last change, where these can be read. -/
structure DiskFile where
  path : String
  present : Bool
  length : Option Nat
  lastModified : Option Int
  deriving DecidableEq, Repr

/-- `path.toLowerCase().endsWith('.wav')`: no other character is an ASCII letter of `wav` in lower
case. -/
def DiskFile.isWav (file : DiskFile) : Bool :=
  ".wav".toList.isSuffixOf (lowered file.path).toList

/-- `getRecordings` on the files of the folder, where it can be listed
(`recording_service.dart:372–385`). -/
def getRecordings (listing : Option (List DiskFile)) : List DiskFile :=
  ((listing.getD []).filter (·.isWav)).mergeSort fun a b ↦
    utf16Encode b.path.toList ≤ utf16Encode a.path.toList

/-- `RecordingService._sessions` (`recording_service.dart:87`). -/
abbrev RecordingSessions := AList fun _ : Int ↦ RecordingSession

/-- A file with its call id and the session of that. -/
@[ext] structure RecordingEntry where
  file : DiskFile
  callId : Int
  session : Option RecordingSession
  deriving DecidableEq

section Entries

variable (P : PathContext)

/-- The loop of `getRecordingsWithSessions` (`recording_service.dart:394–418`). -/
def collectEntries (sessions : RecordingSessions) :
    List DiskFile → Option (List RecordingEntry)
  | [] => some []
  | file :: files =>
    if file.present then
      match matchRecordingName (P.basename file.path).toList with
      | none => collectEntries sessions files
      | some (number, _) =>
        (intParse number).bind fun callId ↦
          (collectEntries sessions files).map
            (RecordingEntry.mk file callId (sessions.lookup callId) :: ·)
    else collectEntries sessions files

/-- `getRecordingsWithSessions` (`recording_service.dart:387–425`). An exception leaves nothing. -/
def getRecordingsWithSessions (listing : Option (List DiskFile)) (sessions : RecordingSessions) :
    List RecordingEntry :=
  (collectEntries P sessions (getRecordings listing)).getD []

/-- The local `DateTime` of a reading, in microseconds. -/
def localMoment (zone : LocalZone) (reading : ClockReading) : Int :=
  (secondsUntil reading - zone.offsetOf (secondsUntil reading)) * 1000000

/-- `substring(start, end)` of Dart. -/
def substring (start stop : Nat) (s : List Char) : List Char := (s.take stop).drop start

/-- `_parseTimestamp` (`recording_item.dart:96–106`). -/
def parseTimestamp (zone : LocalZone) (timestamp : List Char) : Option Int := do
  let year ← intParse (substring 0 4 timestamp)
  let month ← intParse (substring 4 6 timestamp)
  let day ← intParse (substring 6 8 timestamp)
  let hour ← intParse (substring 9 11 timestamp)
  let minute ← intParse (substring 11 13 timestamp)
  let second ← intParse (substring 13 15 timestamp)
  return localMoment zone ⟨⟨year, month, day⟩, hour, minute, second⟩

/-- The time of a recording (`recording_item.dart:33–48`). -/
def createdAt (zone : LocalZone) (now : Int) (file : DiskFile) : Option Int :=
  match matchRecordingName (P.basename file.path).toList with
  | some (_, timestamp) => parseTimestamp zone timestamp
  | none => some (file.lastModified.getD now)

/-- The name of a file on disk carries a call id. -/
def DiskFile.Carries (file : DiskFile) (callId : Int) : Prop :=
  file.present ∧ ∃ number timestamp,
    matchRecordingName (P.basename file.path).toList = some (number, timestamp) ∧
      intParse number = some callId

/-- The number in the name of a file on disk is beyond 64 bits. -/
def DiskFile.Unreadable (file : DiskFile) : Prop :=
  file.present ∧ ∃ number timestamp,
    matchRecordingName (P.basename file.path).toList = some (number, timestamp) ∧
      intParse number = none

end Entries

section Sessions

variable {P : PathContext} {sessions : RecordingSessions} {files : List DiskFile}
  {file : DiskFile} {entry : RecordingEntry}

theorem mem_getRecordings {listing : Option (List DiskFile)} :
    file ∈ getRecordings listing ↔ file ∈ listing.getD [] ∧ file.isWav = true := by
  rw [getRecordings, List.mem_mergeSort, List.mem_filter]

/-- A number beyond 64 bits ends the loop. -/
theorem collectEntries_eq_none_iff :
    collectEntries P sessions files = none ↔ ∃ file ∈ files, file.Unreadable P := by
  induction files with
  | nil => simp [collectEntries]
  | cons file files ih =>
    rw [List.exists_mem_cons_iff, ← ih, collectEntries]
    by_cases hpresent : file.present = true
    · rw [if_pos hpresent]
      cases hname : matchRecordingName (P.basename file.path).toList with
      | none => simp [DiskFile.Unreadable, hname]
      | some name =>
        obtain ⟨number, timestamp⟩ := name
        cases hnumber : intParse number with
        | none => simp [DiskFile.Unreadable, hname, hnumber, hpresent]
        | some callId => simp [DiskFile.Unreadable, hname, hnumber]
    · rw [if_neg hpresent]
      simp [DiskFile.Unreadable, hpresent]

/-- The entries are those of the files whose names carry a call id, with its session. -/
theorem mem_of_collectEntries {entries : List RecordingEntry}
    (h : collectEntries P sessions files = some entries) :
    entry ∈ entries ↔ entry.file ∈ files ∧ entry.file.Carries P entry.callId ∧
      entry.session = sessions.lookup entry.callId := by
  induction files generalizing entries with
  | nil =>
    cases h
    simp
  | cons file files ih =>
    rw [collectEntries] at h
    by_cases hpresent : file.present = true
    · rw [if_pos hpresent] at h
      cases hname : matchRecordingName (P.basename file.path).toList with
      | none =>
        rw [hname] at h
        rw [ih h, List.mem_cons, or_and_right, or_iff_right]
        rintro ⟨rfl, ⟨-, number, timestamp, hmatch, -⟩, -⟩
        cases hname.symm.trans hmatch
      | some name =>
        rw [hname] at h
        obtain ⟨callId, hnumber, hrest⟩ := Option.bind_eq_some_iff.mp h
        obtain ⟨rest, hcollect, rfl⟩ := Option.map_eq_some_iff.mp hrest
        have hcarries : ∀ id, file.Carries P id ↔ id = callId := by
          intro id
          constructor
          · rintro ⟨-, number, timestamp, hmatch, hid⟩
            cases hname.symm.trans hmatch
            exact Option.some.inj (hid.symm.trans hnumber)
          · rintro rfl
            exact ⟨hpresent, name.1, name.2, hname, hnumber⟩
        rw [List.mem_cons, List.mem_cons, or_and_right, ih hcollect]
        refine or_congr ?_ Iff.rfl
        constructor
        · rintro rfl
          exact ⟨rfl, (hcarries callId).mpr rfl, rfl⟩
        · rintro ⟨hfile, hid, hlookup⟩
          rw [hfile, hcarries] at hid
          exact RecordingEntry.ext hfile hid (hid ▸ hlookup)
    · rw [if_neg hpresent] at h
      rw [ih h, List.mem_cons, or_and_right, or_iff_right]
      rintro ⟨rfl, ⟨hfile, -⟩, -⟩
      exact hpresent hfile

variable {listing : Option (List DiskFile)}

/-- Where every number in a name is within 64 bits the result has an entry for each WAV file whose
name carries a call id. -/
theorem mem_getRecordingsWithSessions
    (hreadable : ¬∃ file ∈ listing.getD [], file.isWav ∧ file.Unreadable P) :
    entry ∈ getRecordingsWithSessions P listing sessions ↔
      (entry.file ∈ listing.getD [] ∧ entry.file.isWav = true) ∧
        entry.file.Carries P entry.callId ∧ entry.session = sessions.lookup entry.callId := by
  rw [getRecordingsWithSessions]
  cases hcollect : collectEntries P sessions (getRecordings listing) with
  | none =>
    obtain ⟨file, hfile, hunreadable⟩ := collectEntries_eq_none_iff.mp hcollect
    obtain ⟨hlisted, hwav⟩ := mem_getRecordings.mp hfile
    exact absurd ⟨file, hlisted, hwav, hunreadable⟩ hreadable
  | some entries => rw [Option.getD_some, mem_of_collectEntries hcollect, mem_getRecordings]

/-- A number beyond 64 bits leaves nothing. -/
theorem getRecordingsWithSessions_eq_nil
    (hunreadable : ∃ file ∈ listing.getD [], file.isWav ∧ file.Unreadable P) :
    getRecordingsWithSessions P listing sessions = [] := by
  obtain ⟨file, hlisted, hwav, hfile⟩ := hunreadable
  rw [getRecordingsWithSessions,
    collectEntries_eq_none_iff.mpr ⟨file, mem_getRecordings.mpr ⟨hlisted, hwav⟩, hfile⟩]
  rfl

end Sessions

/-- Every session that is attached to a file is that file's just if the WAV files whose names carry
the call id of a session are the file of that session, or a name holds a number beyond 64 bits, and
there are no entries at all. -/
theorem recordings_own_sessions_iff (P : PathContext) (listing : Option (List DiskFile))
    (sessions : RecordingSessions) :
    (∀ entry ∈ getRecordingsWithSessions P listing sessions, ∀ session,
        entry.session = some session → session.filePath = some entry.file.path) ↔
      (∃ file ∈ listing.getD [], file.isWav ∧ file.Unreadable P) ∨
        ∀ callId session, sessions.lookup callId = some session →
          ∀ file ∈ listing.getD [], file.isWav → file.Carries P callId →
            session.filePath = some file.path := by
  by_cases hunreadable : ∃ file ∈ listing.getD [], file.isWav ∧ file.Unreadable P
  · rw [getRecordingsWithSessions_eq_nil hunreadable]
    exact iff_of_true (by simp) (Or.inl hunreadable)
  · rw [or_iff_right hunreadable]
    constructor
    · intro hown callId session hsession file hfile hwav hcarries
      have hentry : ⟨file, callId, sessions.lookup callId⟩ ∈
          getRecordingsWithSessions P listing sessions :=
        (mem_getRecordingsWithSessions hunreadable).mpr ⟨⟨hfile, hwav⟩, hcarries, rfl⟩
      exact hown _ hentry session hsession
    · intro hown entry hentry session hsession
      obtain ⟨⟨hlisted, hwav⟩, hcarries, hlookup⟩ :=
        (mem_getRecordingsWithSessions hunreadable).mp hentry
      exact hown entry.callId session (hlookup.symm.trans hsession) entry.file hlisted hwav hcarries

/-- The characters that divide a path of Windows. -/
def isSeparator (c : Char) : Bool := c = '/' || c = '\\'

/-- A folder and what is in it. -/
def joinPath (dir name : String) : String :=
  if dir.toList.getLast?.all isSeparator then dir ++ name else dir ++ "\\" ++ name

/-- Paths of Windows. -/
def windowsPaths : PathContext where
  basename path := String.ofList
    ((path.toList.reverse.dropWhile isSeparator).takeWhile fun c ↦ !isSeparator c).reverse
  join parts := parts.foldl joinPath ""

/-- A file of call 1 of an earlier run gets the session of call 1 of this one. -/
theorem recording_of_earlier_run :
    ¬∀ entry ∈ getRecordingsWithSessions windowsPaths
          (some [⟨"C:\\rec\\2024\\01\\1_20240115_100000.wav", true, some 44, some 0⟩])
          (AList.singleton 1
            { callId := 1
              filePath := some "C:\\rec\\2024\\02\\1_20240220_090000.wav"
              phase := .stopped }),
        ∀ session, entry.session = some session → session.filePath = some entry.file.path := by
  intro hown
  have hreadable : ¬∃ file ∈ (some [(⟨"C:\\rec\\2024\\01\\1_20240115_100000.wav", true, some 44,
      some 0⟩ : DiskFile)]).getD [], file.isWav ∧ file.Unreadable windowsPaths := by
    rintro ⟨file, hfile, -, -, number, timestamp, hname, hnumber⟩
    rw [List.mem_singleton.mp hfile] at hname
    cases hname
    revert hnumber
    decide
  have hpath := hown ⟨_, 1, _⟩ ((mem_getRecordingsWithSessions hreadable).mpr
    ⟨⟨List.mem_cons_self, by decide +kernel⟩,
      ⟨rfl, ['1'], "20240115_100000".toList, by decide +kernel, by decide +kernel⟩, rfl⟩) _ rfl
  revert hpath
  decide

section RoundTrip

variable {number : List Char} {timestamp : ClockReading}

/-- The fields of a reading have the widths that they are padded to. -/
structure Compact (timestamp : ClockReading) : Prop where
  year : 0 ≤ timestamp.year ∧ timestamp.year < 10 ^ 4
  month : 0 ≤ timestamp.month ∧ timestamp.month < 10 ^ 2
  day : 0 ≤ timestamp.day ∧ timestamp.day < 10 ^ 2
  hour : 0 ≤ timestamp.hour ∧ timestamp.hour < 10 ^ 2
  minute : 0 ≤ timestamp.minute ∧ timestamp.minute < 10 ^ 2
  second : 0 ≤ timestamp.second ∧ timestamp.second < 10 ^ 2

/-- Readings of the years 0 to 9999 do. -/
theorem compact_readingOf {seconds : Int} (hyear : 0 ≤ (readingOf seconds).year)
    (hyear' : (readingOf seconds).year ≤ 9999) : Compact (readingOf seconds) := by
  have hmonth := month_dateOf (seconds / 86400)
  have hday := day_dateOf (seconds / 86400)
  constructor <;> simp only [readingOf] at * <;> omega

/-- The pattern finds the number and the time in the name of a recording. -/
theorem matchRecordingName_eq (h : Compact timestamp) (hne : number ≠ [])
    (hdigits : ∀ c ∈ number, c.isDigit = true) :
    matchRecordingName (number ++ '_' :: formatCompactTimestamp timestamp ++ ".wav".toList) =
      some (number, formatCompactTimestamp timestamp) := by
  obtain ⟨year, month, day, hour, minute, second⟩ := h
  generalize hdate : padded 4 timestamp.year ++ padded 2 timestamp.month ++
    padded 2 timestamp.day = date
  generalize htime : padded 2 timestamp.hour ++ padded 2 timestamp.minute ++
    padded 2 timestamp.second = time
  have hformat : formatCompactTimestamp timestamp = date ++ '_' :: time := by
    simp [formatCompactTimestamp, ← hdate, ← htime]
  have hdate8 : date.length = 8 := by
    rw [← hdate, List.length_append, List.length_append, length_padded (by decide) year.1 year.2,
      length_padded (by decide) month.1 month.2, length_padded (by decide) day.1 day.2]
  have htime6 : time.length = 6 := by
    rw [← htime, List.length_append, List.length_append, length_padded (by decide) hour.1 hour.2,
      length_padded (by decide) minute.1 minute.2, length_padded (by decide) second.1 second.2]
  have hdateDigits : ∀ c ∈ date, c.isDigit = true := by
    intro c hc
    rw [← hdate, List.mem_append, List.mem_append] at hc
    obtain (hc | hc) | hc := hc
    · exact isDigit_of_mem_padded year.1 hc
    · exact isDigit_of_mem_padded month.1 hc
    · exact isDigit_of_mem_padded day.1 hc
  have htimeDigits : ∀ c ∈ time, c.isDigit = true := by
    intro c hc
    rw [← htime, List.mem_append, List.mem_append] at hc
    obtain (hc | hc) | hc := hc
    · exact isDigit_of_mem_padded hour.1 hc
    · exact isDigit_of_mem_padded minute.1 hc
    · exact isDigit_of_mem_padded second.1 hc
  have hmatch : matchAt recordingNamePattern
      (number ++ ('_' :: (date ++ ('_' :: (time ++ ['.', 'w', 'a', 'v']))))) =
        some ([number, ['_'], date, ['_'], time, ['.'], ['w'], ['a'], ['v']], []) := by
    unfold recordingNamePattern
    rw [← hdate8, ← htime6]
    have hend : ∀ c ∈ ('_' :: (date ++ ('_' :: (time ++ ['.', 'w', 'a', 'v'])))).head?,
        c.isDigit = false := by
      intro c hc
      rw [← Option.some.inj hc]
      decide
    have hwav : matchAt [.only '.', .only 'w', .only 'a', .only 'v'] ['.', 'w', 'a', 'v'] =
        some ([['.'], ['w'], ['a'], ['v']], []) := by decide
    have htail := matchAt_only (a := '_') (matchAt_exactly htimeDigits hwav)
    have hwhole := matchAt_only (a := '_') (matchAt_exactly hdateDigits htail)
    exact matchAt_many hne hdigits hend hwhole
  have htext : number ++ '_' :: formatCompactTimestamp timestamp ++ ".wav".toList =
      number ++ ('_' :: (date ++ ('_' :: (time ++ ['.', 'w', 'a', 'v'])))) := by
    simp [hformat]
  rw [htext, matchRecordingName, search_of_matchAt hmatch, hformat]
  simp [group]

/-- A padded number is read again. -/
theorem intParse_padded (width : Nat) {n : Int} (hn : 0 ≤ n) (hlt : n < 2 ^ 63) :
    intParse (padded width n) = some n := by
  rw [intParse, ofDigitChars_padded width hn, if_pos (by omega), Int.toNat_of_nonneg hn]

/-- The time in the name of a recording is read as a local one. -/
theorem parseTimestamp_formatCompactTimestamp (zone : LocalZone) (h : Compact timestamp) :
    parseTimestamp zone (formatCompactTimestamp timestamp) = some (localMoment zone timestamp) := by
  obtain ⟨year, month, day, hour, minute, second⟩ := h
  have yearLength : (padded 4 timestamp.year).length = 4 :=
    length_padded (by decide) year.1 year.2
  have monthLength : (padded 2 timestamp.month).length = 2 :=
    length_padded (by decide) month.1 month.2
  have dayLength : (padded 2 timestamp.day).length = 2 :=
    length_padded (by decide) day.1 day.2
  have hourLength : (padded 2 timestamp.hour).length = 2 :=
    length_padded (by decide) hour.1 hour.2
  have minuteLength : (padded 2 timestamp.minute).length = 2 :=
    length_padded (by decide) minute.1 minute.2
  have secondLength : (padded 2 timestamp.second).length = 2 :=
    length_padded (by decide) second.1 second.2
  have hyear := intParse_padded 4 year.1 (by omega)
  have hmonth := intParse_padded 2 month.1 (by omega)
  have hday := intParse_padded 2 day.1 (by omega)
  have hhour := intParse_padded 2 hour.1 (by omega)
  have hminute := intParse_padded 2 minute.1 (by omega)
  have hsecond := intParse_padded 2 second.1 (by omega)
  rw [formatCompactTimestamp]
  generalize padded 4 timestamp.year = yearText at *
  generalize padded 2 timestamp.month = monthText at *
  generalize padded 2 timestamp.day = dayText at *
  generalize padded 2 timestamp.hour = hourText at *
  generalize padded 2 timestamp.minute = minuteText at *
  generalize padded 2 timestamp.second = secondText at *
  -- With their lengths known, the slices of the parser are the texts of the fields.
  obtain ⟨y₁, y₂, y₃, y₄, rfl⟩ := List.length_eq_four.mp yearLength
  obtain ⟨m₁, m₂, rfl⟩ := List.length_eq_two.mp monthLength
  obtain ⟨d₁, d₂, rfl⟩ := List.length_eq_two.mp dayLength
  obtain ⟨h₁, h₂, rfl⟩ := List.length_eq_two.mp hourLength
  obtain ⟨n₁, n₂, rfl⟩ := List.length_eq_two.mp minuteLength
  obtain ⟨s₁, s₂, rfl⟩ := List.length_eq_two.mp secondLength
  simp [parseTimestamp, substring, hyear, hmonth, hday, hhour, hminute, hsecond]

/-- A name without separators is the last part of a path that ends in it. -/
theorem basename_joinPath (dir : String) {name : String} (hne : name.toList ≠ [])
    (hname : ∀ c ∈ name.toList, isSeparator c = false) :
    windowsPaths.basename (joinPath dir name) = name := by
  obtain ⟨front, hpath, hend⟩ : ∃ front, (joinPath dir name).toList = front ++ name.toList ∧
      front.getLast?.all isSeparator = true := by
    unfold joinPath
    split
    · next hall => exact ⟨dir.toList, by simp, hall⟩
    · exact ⟨dir.toList ++ ['\\'], by simp, by simp [isSeparator]⟩
  have hreverse : ∀ c ∈ name.toList.reverse, isSeparator c = false := by
    intro c hc
    exact hname c (List.mem_reverse.mp hc)
  have hdrop : (name.toList.reverse ++ front.reverse).dropWhile isSeparator =
      name.toList.reverse ++ front.reverse := by
    apply dropWhile_eq_self
    intro c hc
    rw [List.head?_append_of_ne_nil _ (by simpa using hne)] at hc
    exact hreverse c (List.mem_of_mem_head? hc)
  have hstop : front.reverse.takeWhile (fun c ↦ !isSeparator c) = [] := by
    rw [← List.head?_reverse] at hend
    cases hfront : front.reverse with
    | nil => rfl
    | cons c rest =>
      rw [hfront] at hend
      rw [List.takeWhile_cons_of_neg]
      simpa using hend
  have hnot : ∀ c ∈ name.toList.reverse, (!isSeparator c) = true := by
    intro c hc
    rw [hreverse c hc]
    rfl
  simp only [windowsPaths]
  rw [hpath, List.reverse_append, hdrop, List.takeWhile_append_of_pos hnot, hstop,
    List.append_nil, List.reverse_reverse, String.ofList_toList]

/-- A plain character divides no path. -/
theorem isSeparator_of_isPlain {c : Char} (h : isPlain c = true) : isSeparator c = false := by
  by_contra hne
  rw [Bool.not_eq_false, isSeparator, Bool.or_eq_true, decide_eq_true_eq, decide_eq_true_eq] at hne
  obtain rfl | rfl := hne <;> exact absurd h (by decide)

/-- Paths of Windows are paths. -/
theorem windowsPaths_sound : windowsPaths.Sound where
  basename_join dir name hne hname := by
    have hjoin : windowsPaths.join [dir, name] = joinPath dir name := by
      have hdir : joinPath "" dir = dir := by simp [joinPath]
      rw [← congrArg (joinPath · name) hdir]
      rfl
    rw [hjoin]
    refine basename_joinPath dir (by simpa using hne) fun c hc ↦ ?_
    exact isSeparator_of_isPlain (hname c hc)

theorem isPlain_of_isDigit {c : Char} (h : c.isDigit = true) : isPlain c = true := by
  simp [isPlain, Char.isAlphanum, h]

/-- A character that is no digit does not begin a match. -/
theorem matchRecordingName_cons {c : Char} (hc : c.isDigit = false) (fileName : List Char) :
    matchRecordingName (c :: fileName) = matchRecordingName fileName := by
  have hnone : matchAt recordingNamePattern (c :: fileName) = none :=
    matchAt_eq_none (by decide) hc _ fileName
  rw [matchRecordingName, search_cons hnone, Option.map_map]
  rfl

/-- So the number in the name of a recording is the call id without its sign. -/
theorem matchRecordingName_recordingName (callId : Int) (h : Compact timestamp) :
    matchRecordingName (recordingName callId timestamp) =
      some (Nat.toDigits 10 callId.natAbs, formatCompactTimestamp timestamp) := by
  have hdigits : ∀ c ∈ Nat.toDigits 10 callId.natAbs, c.isDigit = true :=
    fun _ hc ↦ isDigit_of_mem_toDigits hc
  have hmatch := matchRecordingName_eq h Nat.toDigits_ne_nil hdigits
  rw [recordingName, toList_toString]
  split
  · next hnonneg =>
    have habs : callId.toNat = callId.natAbs := by omega
    rw [habs, hmatch]
  · next hneg =>
    have habs : (-callId).toNat = callId.natAbs := by omega
    rw [habs, List.cons_append, List.cons_append, matchRecordingName_cons (by decide), hmatch]

/-- The name of a recording is plain. -/
theorem isPlain_of_mem_recordingName {callId : Int} (h : Compact timestamp) {c : Char}
    (hc : c ∈ recordingName callId timestamp) : isPlain c = true := by
  have hsign : ∀ c ∈ (toString callId).toList, c = '-' ∨ c.isDigit = true := by
    intro c hc
    rw [toList_toString] at hc
    split at hc
    · exact Or.inr (isDigit_of_mem_toDigits hc)
    · exact (List.mem_cons.mp hc).imp id isDigit_of_mem_toDigits
  have hdigit {width : Nat} {n : Int} (hn : 0 ≤ n) {c : Char} (hc : c ∈ padded width n) :
      isPlain c = true := isPlain_of_isDigit (isDigit_of_mem_padded hn hc)
  simp only [recordingName, formatCompactTimestamp, List.mem_append, List.mem_cons] at hc
  obtain (hc | rfl | (((((hc | hc) | hc) | (rfl | hc)) | hc) | hc)) | hc := hc
  · obtain rfl | hc := hsign c hc
    · decide
    · exact isPlain_of_isDigit hc
  · decide
  · exact hdigit h.year.1 hc
  · exact hdigit h.month.1 hc
  · exact hdigit h.day.1 hc
  · decide
  · exact hdigit h.hour.1 hc
  · exact hdigit h.minute.1 hc
  · exact hdigit h.second.1 hc
  · have hextension : ∀ c ∈ ".wav".toList, isPlain c = true :=
      List.all_iff_forall_prop.mp (by decide)
    exact hextension c hc

variable {P : PathContext}

/-- It is the last part of the path of the recording. -/
theorem basename_generateRecordingPath (hP : P.Sound) (rootDir : String) (zone : LocalZone)
    (callId : Int) {timestamp : Int} (h : Compact (readingOf (timestamp / 1000000))) :
    (P.basename (generateRecordingPath P rootDir zone callId timestamp)).toList =
      recordingName callId (readingOf (timestamp / 1000000)) := by
  have hname := String.toList_ofList (l := recordingName callId (readingOf (timestamp / 1000000)))
  rw [generateRecordingPath, hP.basename_join, hname]
  · rw [ne_eq, String.ofList_eq_empty_iff]
    simp [recordingName]
  · rw [hname]
    exact fun c hc ↦ isPlain_of_mem_recordingName h hc

section Reading

variable (hP : P.Sound) (rootDir : String) (zone : LocalZone) (callId now timestamp : Int)
  (hyear : 0 ≤ (readingOf (timestamp / 1000000)).year)
  (hyear' : (readingOf (timestamp / 1000000)).year ≤ 9999) {file : DiskFile}
  (hfile : file.path = generateRecordingPath P rootDir zone callId timestamp)

include hP hyear hyear' hfile

/-- What the pattern finds in the name of a recording. -/
theorem matchRecordingName_of_path : matchRecordingName (P.basename file.path).toList =
    some (Nat.toDigits 10 callId.natAbs,
      formatCompactTimestamp (readingOf (timestamp / 1000000))) := by
  have hcompact := compact_readingOf hyear hyear'
  rw [hfile, basename_generateRecordingPath hP rootDir zone callId hcompact,
    matchRecordingName_recordingName callId hcompact]

/-- The call id is read again unless it has a sign or is beyond 64 bits. -/
theorem intParse_of_path :
    (matchRecordingName (P.basename file.path).toList).bind (fun name ↦ intParse name.1) =
        some callId ↔
      0 ≤ callId ∧ callId < 2 ^ 63 := by
  rw [matchRecordingName_of_path hP rootDir zone callId timestamp hyear hyear' hfile,
    Option.bind_some, intParse, Nat.ofDigitChars_ten_toDigits]
  split
  · rw [Option.some.injEq]
    omega
  · rw [iff_false_left (by simp)]
    omega

/-- The time is read again, to the second, where it is taken with no offset. -/
theorem createdAt_of_path :
    createdAt P zone now file = some (timestamp / 1000000 * 1000000) ↔
      zone.offsetOf (timestamp / 1000000) = 0 := by
  have hcompact := compact_readingOf hyear hyear'
  rw [createdAt, matchRecordingName_of_path hP rootDir zone callId timestamp hyear hyear' hfile]
  simp only
  rw [parseTimestamp_formatCompactTimestamp zone hcompact, localMoment, secondsUntil_readingOf,
    Option.some.injEq]
  omega

end Reading

end RoundTrip

/-- The name that a recording of the years 0 to 9999 is given is read as its call id and, to the
second, its time just if the call id is not negative, as a 64-bit integer, and the local time zone
takes what a clock without offset reads then with no offset. -/
theorem recording_name_round_trip_iff {P : PathContext} (hP : P.Sound) (rootDir : String)
    (zone : LocalZone) (callId timestamp now : Int)
    (hyear : 0 ≤ (readingOf (timestamp / 1000000)).year)
    (hyear' : (readingOf (timestamp / 1000000)).year ≤ 9999) (file : DiskFile)
    (hfile : file.path = generateRecordingPath P rootDir zone callId timestamp) :
    ((matchRecordingName (P.basename file.path).toList).bind (fun name ↦ intParse name.1) =
          some callId ∧
        createdAt P zone now file = some (timestamp / 1000000 * 1000000)) ↔
      0 ≤ callId ∧ callId < 2 ^ 63 ∧ zone.offsetOf (timestamp / 1000000) = 0 := by
  rw [intParse_of_path hP rootDir zone callId timestamp hyear hyear' hfile,
    createdAt_of_path hP rootDir zone callId now timestamp hyear hyear' hfile, and_assoc]

/-- Every clock reads the same all year. -/
def fixedZone (offset : Int) : LocalZone := ⟨fun _ ↦ offset, fun _ ↦ offset⟩

/-- The first recording of a run, at nine o'clock of a day in Greenwich. -/
def firstRecording (zone : LocalZone) : DiskFile :=
  ⟨generateRecordingPath windowsPaths "C:\\rec" zone 1 1708419600000000, true, none, none⟩

/-- Its name is read right where the time is that of Greenwich. -/
theorem recording_name_round_trip_utc :
    (matchRecordingName (windowsPaths.basename (firstRecording (fixedZone 0)).path).toList).bind
        (fun name ↦ intParse name.1) = some 1 ∧
      createdAt windowsPaths (fixedZone 0) 0 (firstRecording (fixedZone 0)) =
        some (1708419600000000 / 1000000 * 1000000) :=
  (recording_name_round_trip_iff windowsPaths_sound "C:\\rec" (fixedZone 0) 1 1708419600000000 0
    (by decide) (by decide) (firstRecording (fixedZone 0)) rfl).mpr ⟨by decide, by decide, rfl⟩

/-- An hour further east its time is read as an hour earlier. -/
theorem recording_name_an_hour_east :
    ¬((matchRecordingName
          (windowsPaths.basename (firstRecording (fixedZone 3600)).path).toList).bind
        (fun name ↦ intParse name.1) = some 1 ∧
      createdAt windowsPaths (fixedZone 3600) 0 (firstRecording (fixedZone 3600)) =
        some (1708419600000000 / 1000000 * 1000000)) := by
  rintro ⟨-, htime⟩
  have hoffset := (createdAt_of_path windowsPaths_sound "C:\\rec" (fixedZone 3600) 1 0
    1708419600000000 (by decide) (by decide) rfl).mp htime
  revert hoffset
  decide

end PacketDial.Ui
