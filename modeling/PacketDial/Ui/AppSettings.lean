import PacketDial.Lib.Assignments
import PacketDial.Ui.ActiveCalls
import PacketDial.Ui.HistoryFile
import PacketDial.Ui.Text

/-!
# The settings of the app

`AppSettingsService` of `app_flutter/lib/core/app_settings_service.dart`: it keeps its settings in
`app_settings.json`, and imports some of them from files. Reading and importing assign one field
after another, and a cast that fails ends them where they are. The text of a file stands for the
JSON value that it decodes to.
-/

namespace PacketDial.Ui

open PacketDial.Core PacketDial.Lib

/-- A `Map<String, dynamic>`. -/
abbrev JsonMap := List (String × Json)

/-- The fields of `AppSettingsService` (`app_settings_service.dart:16–65`). -/
structure AppSettings where
  codecPriorities : List JsonMap
  dtmfMethod : Int
  ecEnabled : Bool
  micAmplificationEnabled : Bool
  autoAnswerEnabled : Bool
  dndEnabled : Bool
  blfEnabled : Bool
  startWithWindowsEnabled : Bool
  lightModeEnabled : Bool
  ringWebhookUrl : String
  ringWebhookEnabled : Bool
  endWebhookUrl : String
  callEndWebhookEnabled : Bool
  customerLookupUrl : String
  customerLookupTimeoutMs : Int
  customerLookupEnabled : Bool
  screenPopUrl : String
  screenPopEvent : String
  screenPopOpenBrowser : Bool
  screenPopSuppressWindow : Bool
  localCallRecordingEnabled : Bool
  localRecordingDirectory : String
  localRecordingFormat : String
  recordingUploadUrl : String
  recordingFileFieldName : String
  recordingUploadEnabled : Bool

/-- The fields as they are declared. -/
def AppSettings.initial : AppSettings where
  codecPriorities := []
  dtmfMethod := 3
  ecEnabled := true
  micAmplificationEnabled := false
  autoAnswerEnabled := false
  dndEnabled := false
  blfEnabled := true
  startWithWindowsEnabled := false
  lightModeEnabled := false
  ringWebhookUrl := ""
  ringWebhookEnabled := false
  endWebhookUrl := ""
  callEndWebhookEnabled := true
  customerLookupUrl := ""
  customerLookupTimeoutMs := 5000
  customerLookupEnabled := false
  screenPopUrl := ""
  screenPopEvent := "ring"
  screenPopOpenBrowser := true
  screenPopSuppressWindow := false
  localCallRecordingEnabled := false
  localRecordingDirectory := ""
  localRecordingFormat := "wav"
  recordingUploadUrl := ""
  recordingFileFieldName := "recording"
  recordingUploadEnabled := false

/-- An entry of the list of codecs. -/
def codecEntry (codec : String) (priority : Nat) : JsonMap :=
  [("codec", .str codec), ("priority", .num (.posInt priority)), ("enabled", .bool true)]

/-- The cast to `Map<String, dynamic>`. -/
def asMap : Json → Option JsonMap
  | .obj fields => some fields
  | _ => none

/-- `List<Map<String, dynamic>>.from(json as List)`. -/
def asCodecs (json : Json) : Option (List JsonMap) := do (← json.asArray).mapM asMap

/-- `List<Map<String, dynamic>>.from(json as List? ?? [])`. -/
def asCodecsOrEmpty : Json → Option (List JsonMap)
  | .null => some []
  | json => asCodecs json

/-- A cast that null does not pass. -/
def required {α : Type} (cast : Json → Option (Option α)) (json : Json) : Option α :=
  (cast json).join

/-- `containsKey`. -/
def containsKey (data : Json) (key : String) : Bool :=
  match data with
  | .obj fields => fields.any (·.1 == key)
  | _ => false

namespace AppSettings

section Files

/-- Assign a field the value under a key, or a default (`app_settings_service.dart:118–159`). -/
def loadStep {α : Type} (cast : Json → Option (Option α)) (json : Json) (default : α)
    (set : α → AppSettings → AppSettings) : Option (AppSettings → AppSettings) :=
  (cast json).map fun v ↦ set (v.getD default)

/-- The assignments of `loadSettings`, in their order (`app_settings_service.dart:118–159`). The
format of recordings is `wav` whatever the file says. -/
def loadSteps (data : Json) : List (Option (AppSettings → AppSettings)) :=
  [(asCodecsOrEmpty (data.get "codec_priorities")).map fun v s ↦ { s with codecPriorities := v },
    loadStep asInt (data.get "dtmf_method") 3 fun v s ↦ { s with dtmfMethod := v },
    loadStep asBool (data.get "ec_enabled") true fun v s ↦ { s with ecEnabled := v },
    loadStep asBool (data.get "mic_amplification_enabled") false fun v s ↦
      { s with micAmplificationEnabled := v },
    loadStep asBool (data.get "auto_answer_enabled") false fun v s ↦
      { s with autoAnswerEnabled := v },
    loadStep asBool (data.get "dnd_enabled") false fun v s ↦ { s with dndEnabled := v },
    loadStep asBool (data.get "blf_enabled") true fun v s ↦ { s with blfEnabled := v },
    loadStep asBool (data.get "start_with_windows_enabled") true fun v s ↦
      { s with startWithWindowsEnabled := v },
    loadStep asBool (data.get "light_mode_enabled") false fun v s ↦
      { s with lightModeEnabled := v },
    loadStep asString (data.get "ring_webhook_url") "" fun v s ↦
      { s with ringWebhookUrl := dartTrim v },
    (asBool (data.get "ring_webhook_enabled")).map fun v s ↦
      { s with ringWebhookEnabled := v.getD !s.ringWebhookUrl.isEmpty },
    loadStep asString (data.get "end_webhook_url") "" fun v s ↦
      { s with endWebhookUrl := dartTrim v },
    loadStep asBool (data.get "call_end_webhook_enabled") true fun v s ↦
      { s with callEndWebhookEnabled := v },
    loadStep asString (data.get "customer_lookup_url") "" fun v s ↦
      { s with customerLookupUrl := dartTrim v },
    loadStep asInt (data.get "customer_lookup_timeout_ms") 5000 fun v s ↦
      { s with customerLookupTimeoutMs := v },
    loadStep asBool (data.get "customer_lookup_enabled") false fun v s ↦
      { s with customerLookupEnabled := v },
    loadStep asString (data.get "screen_pop_url") "" fun v s ↦
      { s with screenPopUrl := dartTrim v },
    loadStep asString (data.get "screen_pop_event") "ring" fun v s ↦ { s with screenPopEvent := v },
    loadStep asBool (data.get "screen_pop_open_browser") true fun v s ↦
      { s with screenPopOpenBrowser := v },
    loadStep asBool (data.get "screen_pop_suppress_window") false fun v s ↦
      { s with screenPopSuppressWindow := v },
    loadStep asBool (data.get "local_call_recording_enabled") false fun v s ↦
      { s with localCallRecordingEnabled := v },
    loadStep asString (data.get "local_recording_directory") "" fun v s ↦
      { s with localRecordingDirectory := v },
    loadStep asString (data.get "local_recording_format") "wav" fun _ s ↦
      { s with localRecordingFormat := "wav" },
    loadStep asString (data.get "recording_upload_url") "" fun v s ↦
      { s with recordingUploadUrl := v },
    loadStep asString (data.get "recording_file_field_name") "recording" fun v s ↦
      { s with recordingFileFieldName := v },
    loadStep asBool (data.get "recording_upload_enabled") false fun v s ↦
      { s with recordingUploadEnabled := v }]

/-- The settings after an error (`app_settings_service.dart:179–187`). -/
def afterError (s : AppSettings) : AppSettings :=
  { s with
    codecPriorities := [codecEntry "PCMU" 10, codecEntry "PCMA" 9]
    startWithWindowsEnabled := true }

/-- The settings where there is no file (`app_settings_service.dart:164–178`). -/
def defaults : AppSettings :=
  { initial with
    codecPriorities := [codecEntry "PCMU" 10, codecEntry "PCMA" 9, codecEntry "G729" 8,
      codecEntry "G722" 7, codecEntry "OPUS" 6]
    startWithWindowsEnabled := true }

/-- `app_settings.json`: it may be missing, or hold no JSON. -/
inductive SettingsFile where
  | missing
  | unreadable
  | content (json : Json)

/-- What `loadSettings` makes of the file; the flag of the auto-start is then replaced by what the
registry says, which is never on other systems than Windows (`app_settings_service.dart:107–208`).
-/
def loadSettings (registered : Bool) (file : SettingsFile) : AppSettings :=
  let s := match file with
    | .missing => defaults
    | .unreadable => afterError initial
    | .content (.obj fields) =>
      let result := assignAll (loadSteps (.obj fields)) initial
      if result.1 then result.2 else afterError result.2
    | .content _ => afterError initial
  { s with startWithWindowsEnabled := registered }

/-- `saveSettings` (`app_settings_service.dart:211–247`). -/
def saveSettings (s : AppSettings) : Json :=
  .obj
    [("codec_priorities", .arr (s.codecPriorities.map .obj)), ("dtmf_method", .ofI32 s.dtmfMethod),
      ("ec_enabled", .bool s.ecEnabled),
      ("mic_amplification_enabled", .bool s.micAmplificationEnabled),
      ("auto_answer_enabled", .bool s.autoAnswerEnabled), ("dnd_enabled", .bool s.dndEnabled),
      ("blf_enabled", .bool s.blfEnabled),
      ("start_with_windows_enabled", .bool s.startWithWindowsEnabled),
      ("light_mode_enabled", .bool s.lightModeEnabled),
      ("ring_webhook_url", .str s.ringWebhookUrl),
      ("ring_webhook_enabled", .bool s.ringWebhookEnabled),
      ("end_webhook_url", .str s.endWebhookUrl),
      ("call_end_webhook_enabled", .bool s.callEndWebhookEnabled),
      ("customer_lookup_url", .str s.customerLookupUrl),
      ("customer_lookup_timeout_ms", .ofI32 s.customerLookupTimeoutMs),
      ("customer_lookup_enabled", .bool s.customerLookupEnabled),
      ("screen_pop_url", .str s.screenPopUrl), ("screen_pop_event", .str s.screenPopEvent),
      ("screen_pop_open_browser", .bool s.screenPopOpenBrowser),
      ("screen_pop_suppress_window", .bool s.screenPopSuppressWindow),
      ("local_call_recording_enabled", .bool s.localCallRecordingEnabled),
      ("local_recording_directory", .str s.localRecordingDirectory),
      ("local_recording_format", .str s.localRecordingFormat),
      ("recording_upload_url", .str s.recordingUploadUrl),
      ("recording_file_field_name", .str s.recordingFileFieldName),
      ("recording_upload_enabled", .bool s.recordingUploadEnabled)]

end Files

end AppSettings

/-- Windows, if it is, and what its registry does: whether setting the auto-start fails, and
whether it is found there afterwards. -/
structure Host where
  isWindows : Bool
  setFails : Bool → Bool
  registered : Bool → Bool

/-- What `_startWithWindowsEnabled` is after it was set, unless that throws
(`app_settings_service.dart:297–301`, `394–454`). -/
def Host.autoStart (host : Host) (enabled : Bool) : Option Bool :=
  if !host.isWindows then some false
  else if host.setFails enabled then none
  else some (host.registered enabled)

/-- The setters (`app_settings_service.dart:250–386`). -/
inductive SettingsSetter where
  | setCodecPriorities (priorities : List JsonMap)
  | setDtmfMethod (method : Int)
  | setEcEnabled (enabled : Bool)
  | setMicAmplificationEnabled (enabled : Bool)
  | setAutoAnswer (enabled : Bool)
  | setGlobalDndEnabled (enabled : Bool)
  | setBlfEnabled (enabled : Bool)
  | setLightModeEnabled (enabled : Bool)
  | setStartWithWindowsEnabled (host : Host) (enabled : Bool)
  | setRingWebhookUrl (url : String)
  | setRingWebhookEnabled (enabled : Bool)
  | setEndWebhookUrl (url : String)
  | setCallEndWebhookEnabled (enabled : Bool)
  | setCustomerLookupUrl (url : String)
  | setCustomerLookupTimeoutMs (ms : Int)
  | setCustomerLookupEnabled (enabled : Bool)
  | setScreenPopUrl (url : String)
  | setScreenPopEvent (event : String)
  | setScreenPopOpenBrowser (openBrowser : Bool)
  | setScreenPopSuppressWindow (suppress : Bool)
  | setRecordingUploadUrl (url : String)
  | setLocalCallRecordingEnabled (enabled : Bool)
  | setLocalRecordingDirectory (directory : String)
  | setLocalRecordingFormat (format : String)
  | setRecordingFileFieldName (name : String)
  | setRecordingUploadEnabled (enabled : Bool)

/-- The settings after a setter. -/
def AppSettings.set (s : AppSettings) : SettingsSetter → AppSettings
  | .setCodecPriorities priorities => { s with codecPriorities := priorities }
  | .setDtmfMethod method => { s with dtmfMethod := method }
  | .setEcEnabled enabled => { s with ecEnabled := enabled }
  | .setMicAmplificationEnabled enabled => { s with micAmplificationEnabled := enabled }
  | .setAutoAnswer enabled => { s with autoAnswerEnabled := enabled }
  | .setGlobalDndEnabled enabled => { s with dndEnabled := enabled }
  | .setBlfEnabled enabled => { s with blfEnabled := enabled }
  | .setLightModeEnabled enabled => { s with lightModeEnabled := enabled }
  | .setStartWithWindowsEnabled host enabled =>
    { s with
      startWithWindowsEnabled := (host.autoStart enabled).getD s.startWithWindowsEnabled }
  | .setRingWebhookUrl url => { s with ringWebhookUrl := dartTrim url }
  | .setRingWebhookEnabled enabled => { s with ringWebhookEnabled := enabled }
  | .setEndWebhookUrl url => { s with endWebhookUrl := dartTrim url }
  | .setCallEndWebhookEnabled enabled => { s with callEndWebhookEnabled := enabled }
  | .setCustomerLookupUrl url => { s with customerLookupUrl := dartTrim url }
  | .setCustomerLookupTimeoutMs ms => { s with customerLookupTimeoutMs := ms }
  | .setCustomerLookupEnabled enabled => { s with customerLookupEnabled := enabled }
  | .setScreenPopUrl url => { s with screenPopUrl := url }
  | .setScreenPopEvent event => { s with screenPopEvent := event }
  | .setScreenPopOpenBrowser openBrowser => { s with screenPopOpenBrowser := openBrowser }
  | .setScreenPopSuppressWindow suppress => { s with screenPopSuppressWindow := suppress }
  | .setRecordingUploadUrl url => { s with recordingUploadUrl := url }
  | .setLocalCallRecordingEnabled enabled => { s with localCallRecordingEnabled := enabled }
  | .setLocalRecordingDirectory directory => { s with localRecordingDirectory := directory }
  | .setLocalRecordingFormat _ => { s with localRecordingFormat := "wav" }
  | .setRecordingFileFieldName name => { s with recordingFileFieldName := name }
  | .setRecordingUploadEnabled enabled => { s with recordingUploadEnabled := enabled }

section Import

/-- A field that the settings have. -/
abbrev SettingField (α : Type) := Field AppSettings α

namespace SettingField

/-- `_codecPriorities`. -/
def codecPriorities : SettingField (List JsonMap) where
  get s := s.codecPriorities
  set v s := { s with codecPriorities := v }
  get_set _ _ := rfl
  set_eq_self_iff v s := ⟨fun h ↦ congrArg AppSettings.codecPriorities h, fun h ↦ by rw [h]⟩

/-- `_dtmfMethod`. -/
def dtmfMethod : SettingField Int where
  get s := s.dtmfMethod
  set v s := { s with dtmfMethod := v }
  get_set _ _ := rfl
  set_eq_self_iff v s := ⟨fun h ↦ congrArg AppSettings.dtmfMethod h, fun h ↦ by rw [h]⟩

/-- `_autoAnswerEnabled`. -/
def autoAnswerEnabled : SettingField Bool where
  get s := s.autoAnswerEnabled
  set v s := { s with autoAnswerEnabled := v }
  get_set _ _ := rfl
  set_eq_self_iff v s := ⟨fun h ↦ congrArg AppSettings.autoAnswerEnabled h, fun h ↦ by rw [h]⟩

/-- `_blfEnabled`. -/
def blfEnabled : SettingField Bool where
  get s := s.blfEnabled
  set v s := { s with blfEnabled := v }
  get_set _ _ := rfl
  set_eq_self_iff v s := ⟨fun h ↦ congrArg AppSettings.blfEnabled h, fun h ↦ by rw [h]⟩

/-- `_startWithWindowsEnabled`. -/
def startWithWindowsEnabled : SettingField Bool where
  get s := s.startWithWindowsEnabled
  set v s := { s with startWithWindowsEnabled := v }
  get_set _ _ := rfl
  set_eq_self_iff v s :=
    ⟨fun h ↦ congrArg AppSettings.startWithWindowsEnabled h, fun h ↦ by rw [h]⟩

end SettingField

variable {α : Type}

/-- Import a field whose key the file has (`app_settings_service.dart:479–497`). -/
def importStep (data : Json) (key : String) (F : SettingField α) (cast : Json → Option α) :
    Option (AppSettings → AppSettings) :=
  if containsKey data key then (cast (data.get key)).map F.set else some id

/-- The assignments of `importSettings`, in their order (`app_settings_service.dart:479–497`). -/
def importSteps (host : Host) (data : Json) : List (Option (AppSettings → AppSettings)) :=
  [importStep data "codec_priorities" .codecPriorities asCodecs,
    importStep data "dtmf_method" .dtmfMethod (required asInt),
    importStep data "auto_answer_enabled" .autoAnswerEnabled (required asBool),
    importStep data "blf_enabled" .blfEnabled (required asBool),
    importStep data "start_with_windows_enabled" .startWithWindowsEnabled fun json ↦
      (required asBool json).bind host.autoStart]

/-- `importSettings` of a file: what it returns, and the settings then. The file may hold no JSON
(`app_settings_service.dart:474–505`). -/
def importSettings (host : Host) (document : Option Json) (s : AppSettings) : Bool × AppSettings :=
  match document with
  | some (.obj fields) => assignAll (importSteps host (.obj fields)) s
  | _ => (false, s)

/-- The document has no other value for the field. -/
def Settled (data : Json) (key : String) (F : SettingField α) (cast : Json → Option α)
    (s : AppSettings) : Prop :=
  containsKey data key = true → ∀ v ∈ cast (data.get key), v = F.get s

/-- Of each field that is imported, whether the document has no other value for it. -/
def settledFields (host : Host) (data : Json) (s : AppSettings) : List Prop :=
  [Settled data "codec_priorities" .codecPriorities asCodecs s,
    Settled data "dtmf_method" .dtmfMethod (required asInt) s,
    Settled data "auto_answer_enabled" .autoAnswerEnabled (required asBool) s,
    Settled data "blf_enabled" .blfEnabled (required asBool) s,
    Settled data "start_with_windows_enabled" .startWithWindowsEnabled
      (fun json ↦ (required asBool json).bind host.autoStart) s]

/-- The fields before the first that cannot be imported have the values of the document already. -/
def SettledBefore (host : Host) (data : Json) (s : AppSettings) : Prop :=
  ∀ n, (importSteps host data).findIdx? (·.isNone) = some n →
    ∀ p ∈ (settledFields host data s).take n, p

section Steps

variable {β : Type} {data : Json} {key other : String} {F : SettingField α} {G : SettingField β}
  {cast : Json → Option α} {cast' : Json → Option β}

/-- An import assigns its field. -/
theorem assigns_importStep : ∀ f ∈ importStep data key F cast, F.Assigns f := by
  intro f hf
  unfold importStep at hf
  split at hf
  · obtain ⟨v, -, rfl⟩ := Option.map_eq_some_iff.mp hf
    exact .inr ⟨v, rfl⟩
  · cases hf
    exact .inl rfl

/-- An import of one field leaves another settled that was. -/
theorem stable_importStep (hspares : ∀ v s, F.get (G.set v s) = F.get s) :
    ∀ f ∈ importStep data key F cast, ∀ g ∈ importStep data other G cast',
      ∀ s, f s = s → f (g s) = g s := by
  intro f hf g hg
  apply (assigns_importStep f hf).stable
  rcases assigns_importStep g hg with rfl | ⟨v, rfl⟩
  · exact fun _ ↦ rfl
  · exact hspares v

/-- An import changes nothing just if the document has no other value for the field. -/
theorem importStep_settled (s : AppSettings) :
    ∀ f, importStep data key F cast = some f → (f s = s ↔ Settled data key F cast s) := by
  intro f hf
  unfold importStep at hf
  unfold Settled
  split at hf
  · next hkey =>
    obtain ⟨v, hv, rfl⟩ := Option.map_eq_some_iff.mp hf
    rw [F.set_eq_self_iff, hv]
    simp [hkey]
  · next hkey =>
    cases hf
    exact iff_of_true rfl fun h ↦ absurd h hkey

/-- The fields that are imported are different ones. -/
theorem independent_importSteps (host : Host) (data : Json) :
    Independent (importSteps host data).reduceOption := by
  apply independent_reduceOption
  · simp only [importSteps, List.forall_mem_cons]
    exact ⟨fun f hf ↦ (assigns_importStep f hf).idempotent,
      fun f hf ↦ (assigns_importStep f hf).idempotent,
      fun f hf ↦ (assigns_importStep f hf).idempotent,
      fun f hf ↦ (assigns_importStep f hf).idempotent,
      fun f hf ↦ (assigns_importStep f hf).idempotent, List.forall_mem_nil _⟩
  · simp only [importSteps, List.pairwise_cons, List.forall_mem_cons]
    exact ⟨⟨stable_importStep fun _ _ ↦ rfl, stable_importStep fun _ _ ↦ rfl,
        stable_importStep fun _ _ ↦ rfl, stable_importStep fun _ _ ↦ rfl, List.forall_mem_nil _⟩,
      ⟨stable_importStep fun _ _ ↦ rfl, stable_importStep fun _ _ ↦ rfl,
        stable_importStep fun _ _ ↦ rfl, List.forall_mem_nil _⟩,
      ⟨stable_importStep fun _ _ ↦ rfl, stable_importStep fun _ _ ↦ rfl, List.forall_mem_nil _⟩,
      ⟨stable_importStep fun _ _ ↦ rfl, List.forall_mem_nil _⟩, List.forall_mem_nil _, .nil⟩

end Steps

end Import

/-- An import that fails leaves the settings as they were, if and only if the fields before the
first that cannot be imported have the values of the document already. -/
theorem import_atomic_iff (host : Host) (document : Option Json) (s : AppSettings) :
    ((importSettings host document s).1 = false → (importSettings host document s).2 = s) ↔
      ∀ fields, document = some (.obj fields) → SettledBefore host (.obj fields) s := by
  have hmap (fields : JsonMap) :
      ((importSettings host (some (.obj fields)) s).1 = false →
        (importSettings host (some (.obj fields)) s).2 = s) ↔
          SettledBefore host (.obj fields) s := by
    apply assignAll_atomic_iff (independent_importSteps host (.obj fields))
    exact .cons (importStep_settled s) (.cons (importStep_settled s) (.cons (importStep_settled s)
      (.cons (importStep_settled s) (.cons (importStep_settled s) .nil))))
  cases document with
  | none => exact iff_of_true (fun _ ↦ rfl) fun _ h ↦ by cases h
  | some json =>
    cases json with
    | obj fields =>
      rw [hmap]
      constructor
      · intro h fields' heq
        cases heq
        exact h
      · exact fun h ↦ h fields rfl
    | _ => exact iff_of_true (fun _ ↦ rfl) fun _ h ↦ by cases h

/-- A file with a number for a method and a text for the auto-answer. -/
def mixedDocument : Json :=
  .obj [("dtmf_method", .num (.posInt 1)), ("auto_answer_enabled", .str "yes")]

/-- A system other than Windows. -/
def otherSystem : Host := ⟨false, fun _ ↦ false, fun _ ↦ false⟩

/-- The method is imported, although the import fails. -/
theorem failed_import_sets_method :
    (importSettings otherSystem (some mixedDocument) AppSettings.defaults).1 = false ∧
      (importSettings otherSystem (some mixedDocument) AppSettings.defaults).2 ≠
        AppSettings.defaults := by
  refine ⟨rfl, fun h ↦ ?_⟩
  have hmethod := congrArg AppSettings.dtmfMethod h
  exact absurd hmethod (by decide)

section Restart

open AppSettings

variable {s : AppSettings}

/-- The texts that `loadSettings` changes are as it leaves them, but for one. -/
structure Tidy (ringWebhookUrl endWebhookUrl customerLookupUrl format : String) : Prop where
  ring : dartTrim ringWebhookUrl = ringWebhookUrl
  ended : dartTrim endWebhookUrl = endWebhookUrl
  lookup : dartTrim customerLookupUrl = customerLookupUrl
  format : format = "wav"

/-- The texts of the settings are tidy. -/
def Normalized (s : AppSettings) : Prop :=
  Tidy s.ringWebhookUrl s.endWebhookUrl s.customerLookupUrl s.localRecordingFormat

/-- Trimming twice is trimming once. -/
theorem dartTrim_dartTrim (text : String) : dartTrim (dartTrim text) = dartTrim text := by
  rw [dartTrim, dartTrim, String.toList_ofList, strip_strip]

/-- A list of codecs that was written is read back. -/
theorem asCodecsOrEmpty_map (codecs : List JsonMap) :
    asCodecsOrEmpty (.arr (codecs.map .obj)) = some codecs := by
  change (codecs.map Json.obj).mapM asMap = some codecs
  induction codecs with
  | nil => rfl
  | cons codec codecs ih =>
    rw [List.map_cons, List.mapM_cons, ih]
    rfl

/-- Settings that were saved are read back, but for the texts that are trimmed. -/
theorem loadSteps_saveSettings (s : AppSettings) : assignAll (loadSteps (saveSettings s)) initial =
    (true, { s with
      ringWebhookUrl := dartTrim s.ringWebhookUrl
      endWebhookUrl := dartTrim s.endWebhookUrl
      customerLookupUrl := dartTrim s.customerLookupUrl
      screenPopUrl := dartTrim s.screenPopUrl
      localRecordingFormat := "wav" }) := by
  have hcodecs : asCodecsOrEmpty ((saveSettings s).get "codec_priorities") =
    some s.codecPriorities := asCodecsOrEmpty_map s.codecPriorities
  have hmethod : asInt ((saveSettings s).get "dtmf_method") = some (some s.dtmfMethod) :=
    asInt_ofI32 s.dtmfMethod
  have htimeout : asInt ((saveSettings s).get "customer_lookup_timeout_ms") =
    some (some s.customerLookupTimeoutMs) := asInt_ofI32 s.customerLookupTimeoutMs
  unfold loadSteps loadStep
  rw [hcodecs, hmethod, htimeout]
  rfl

/-- A step of loading keeps the texts as they should be if all its assignments do. -/
theorem normalized_loadStep {α : Type} {cast : Json → Option (Option α)} {json : Json} {default : α}
    {set : α → AppSettings → AppSettings} (h : ∀ v s, Normalized s → Normalized (set v s)) :
    ∀ f ∈ loadStep cast json default set, ∀ s, Normalized s → Normalized (f s) := by
  intro f hf
  obtain ⟨v, -, rfl⟩ := Option.map_eq_some_iff.mp hf
  exact h _

/-- Loading leaves the texts as they should be, wherever it ends. -/
theorem normalized_loadSteps (data : Json) (h : Normalized s) :
    Normalized (assignAll (loadSteps data) s).2 := by
  apply assignAll_invariant ?_ h
  simp only [loadSteps, List.forall_mem_cons]
  and_intros
  -- most of the fields are none of the four texts
  all_goals try exact normalized_loadStep fun _ _ h ↦ h
  · intro f hf s h
    obtain ⟨v, -, rfl⟩ := Option.map_eq_some_iff.mp hf
    exact h
  · exact normalized_loadStep fun v s h ↦ ⟨dartTrim_dartTrim v, h.ended, h.lookup, h.format⟩
  · intro f hf s h
    obtain ⟨v, -, rfl⟩ := Option.map_eq_some_iff.mp hf
    exact h
  · exact normalized_loadStep fun v s h ↦ ⟨h.ring, dartTrim_dartTrim v, h.lookup, h.format⟩
  · exact normalized_loadStep fun v s h ↦ ⟨h.ring, h.ended, dartTrim_dartTrim v, h.format⟩
  · exact normalized_loadStep fun v s h ↦ ⟨h.ring, h.ended, h.lookup, rfl⟩
  · exact List.forall_mem_nil _

/-- The declared texts are as they should be. -/
theorem normalized_initial : Normalized initial := ⟨by decide, by decide, by decide, rfl⟩

/-- Whatever the file holds, the texts are as they should be after it was loaded. -/
theorem normalized_loadSettings (registered : Bool) (file : SettingsFile) :
    Normalized (loadSettings registered file) := by
  cases file with
  | missing => exact normalized_initial
  | unreadable => exact normalized_initial
  | content json =>
    cases json with
    | obj fields =>
      have h := normalized_loadSteps (.obj fields) normalized_initial
      unfold loadSettings
      dsimp only
      split
      · exact h
      · exact h
    | _ => exact normalized_initial

/-- The setters keep the texts as they should be. -/
theorem normalized_set (h : Normalized s) (setter : SettingsSetter) :
    Normalized (s.set setter) := by
  cases setter with
  | setRingWebhookUrl url => exact ⟨dartTrim_dartTrim url, h.ended, h.lookup, h.format⟩
  | setEndWebhookUrl url => exact ⟨h.ring, dartTrim_dartTrim url, h.lookup, h.format⟩
  | setCustomerLookupUrl url => exact ⟨h.ring, h.ended, dartTrim_dartTrim url, h.format⟩
  | setLocalRecordingFormat format => exact ⟨h.ring, h.ended, h.lookup, rfl⟩
  | _ => exact h

/-- The settings that the app has after it loaded a file and some were set. -/
def settingsAfter (registered : Bool) (file : SettingsFile) (setters : List SettingsSetter) :
    AppSettings := setters.foldl AppSettings.set (loadSettings registered file)

/-- The texts are as they should be in every state of the settings. -/
theorem normalized_settingsAfter (registered : Bool) (file : SettingsFile)
    (setters : List SettingsSetter) : Normalized (settingsAfter registered file setters) := by
  unfold settingsAfter
  induction setters using List.reverseRecOn with
  | nil => exact normalized_loadSettings registered file
  | append_singleton setters setter ih =>
    rw [List.foldl_append]
    exact normalized_set ih setter

/-- The settings are the same, but for the flag of the auto-start. -/
def SameButAutoStart (s t : AppSettings) : Prop :=
  { s with startWithWindowsEnabled := t.startWithWindowsEnabled } = t

/-- Loading what was saved restores the settings just if the one text is trimmed. -/
theorem sameButAutoStart_iff (h : Normalized s) (registered : Bool) :
    SameButAutoStart (loadSettings registered (.content (saveSettings s))) s ↔
      dartTrim s.screenPopUrl = s.screenPopUrl := by
  have hload : loadSettings registered (.content (saveSettings s)) = { s with
      screenPopUrl := dartTrim s.screenPopUrl, startWithWindowsEnabled := registered } := by
    have hsteps := loadSteps_saveSettings s
    unfold saveSettings at hsteps ⊢
    unfold loadSettings
    dsimp only
    rw [hsteps, h.ring, h.ended, h.lookup, ← h.format]
    rfl
  rw [hload, SameButAutoStart]
  constructor
  · exact fun heq ↦ congrArg AppSettings.screenPopUrl heq
  · intro heq
    rw [heq]

end Restart

/-- In every state that setters lead to, loading what was saved restores each setting but the
auto-start, if and only if the URL of the screen pop has no white space around it. -/
theorem restart_iff (registered registered' : Bool) (file : AppSettings.SettingsFile)
    (setters : List SettingsSetter) :
    SameButAutoStart
        (AppSettings.loadSettings registered'
          (.content (AppSettings.saveSettings (settingsAfter registered file setters))))
        (settingsAfter registered file setters) ↔
      dartTrim (settingsAfter registered file setters).screenPopUrl =
        (settingsAfter registered file setters).screenPopUrl :=
  sameButAutoStart_iff (normalized_settingsAfter registered file setters) registered'

/-- The settings after a URL with a blank before it was set. -/
def blankBeforeUrl : AppSettings := settingsAfter false .missing [.setScreenPopUrl " http://crm"]

/-- The blank is lost. -/
theorem blank_not_restored :
    ¬SameButAutoStart
        (AppSettings.loadSettings false (.content (AppSettings.saveSettings blankBeforeUrl)))
        blankBeforeUrl ∧
      (AppSettings.loadSettings false
        (.content (AppSettings.saveSettings blankBeforeUrl))).screenPopUrl = "http://crm" := by
  constructor
  · intro h
    have hurl := congrArg AppSettings.screenPopUrl h
    exact absurd hurl (by decide)
  · decide

end PacketDial.Ui
